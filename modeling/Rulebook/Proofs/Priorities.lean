/-
  Priorities — the order of the rules of a set, and what a change of the order in
  which they are given makes of it.

  * `repeatedName?_eq_none_iff`: no name is found to repeat an earlier one exactly if
    all are different.
  * `inOrder_byPriority`: the rules of a set stand by descending priority, and those of one
    priority as they are given.
  * `byPriority_exchange`: where two rules of one priority are given in each other's
    place, they change places in the order, and every other rule stays.
  * `RuleSet.ofRules_exchange`: and the rules still make a set.
-/
import Mathlib.Data.List.Nodup
import Rulebook.Proofs.Reading
import Rulebook.RuleSet

namespace Rulebook

/-! ## Names -/

theorem repeatedName?_eq_none_iff {names : List String} : ∀ {seen : List String},
    repeatedName? seen names = none ↔ names.Nodup ∧ ∀ name ∈ names, name ∉ seen := by
  induction names with
  | nil => simp [repeatedName?]
  | cons name rest ih =>
    intro seen
    rw [repeatedName?]
    split_ifs with h
    · simp [List.contains_iff_mem.1 h]
    · have hnew : name ∉ seen := fun hmem => h (List.contains_iff_mem.2 hmem)
      rw [ih, List.nodup_cons, List.forall_mem_cons]
      constructor
      · rintro ⟨hrest, hseen⟩
        simp only [List.mem_cons, not_or] at hseen
        exact ⟨⟨fun hmem => (hseen name hmem).1 rfl, hrest⟩, hnew, fun n hn => (hseen n hn).2⟩
      · rintro ⟨⟨hname, hrest⟩, -, hseen⟩
        refine ⟨hrest, fun n hn => ?_⟩
        simp only [List.mem_cons, not_or]
        exact ⟨fun heq => hname (heq ▸ hn), hseen n hn⟩

theorem repeatedName?_nil_eq_none_iff {names : List String} :
    repeatedName? [] names = none ↔ names.Nodup := by
  simp [repeatedName?_eq_none_iff]

/-! ## Order -/

/-- Rules in order: the same ones, by descending priority, and those of one priority as they
    were given. -/
structure InOrder (rules ordered : List Rule) : Prop where
  perm : ordered.Perm rules
  descending : ordered.Pairwise fun a b => b.priority.rank ≤ a.priority.rank
  stable : ∀ rank : Int, ordered.filter (fun r => r.priority.rank = rank) =
    rules.filter fun r => r.priority.rank = rank

theorem inOrder_byPriority (rules : List Rule) : InOrder rules (byPriority rules) := by
  have htrans : ∀ a b c : Rule, decide (b.priority.rank ≤ a.priority.rank) →
      decide (c.priority.rank ≤ b.priority.rank) → decide (c.priority.rank ≤ a.priority.rank) := by
    simp only [decide_eq_true_eq]
    omega
  have htotal : ∀ a b : Rule, decide (b.priority.rank ≤ a.priority.rank) ||
      decide (a.priority.rank ≤ b.priority.rank) := by
    simp only [Bool.or_eq_true, decide_eq_true_eq]
    omega
  have hperm : (byPriority rules).Perm rules := rules.mergeSort_perm _
  refine ⟨hperm, (rules.pairwise_mergeSort htrans htotal).imp (by simp), fun rank => ?_⟩
  -- Rules of one priority are in order, so they stay in order.
  have hsublist : (rules.filter fun r => r.priority.rank = rank).Sublist (byPriority rules) := by
    refine List.sublist_mergeSort htrans htotal ?_ List.filter_sublist
    refine List.pairwise_of_forall_mem_list fun a ha b hb => ?_
    simp only [List.mem_filter, decide_eq_true_eq] at ha hb ⊢
    omega
  have hfilter := hsublist.filter fun r => r.priority.rank = rank
  rw [List.filter_filter] at hfilter
  simp only [Bool.and_self] at hfilter
  exact (hfilter.eq_of_length (hperm.filter _).length_eq.symm).symm

/-! ## Exchange -/

/-- One of two rules, known by their names, for the other. -/
def Rule.exchange (r₁ r₂ r : Rule) : Rule :=
  if r.name = r₁.name then r₂ else if r.name = r₂.name then r₁ else r

theorem Rule.exchange_of_ne {r₁ r₂ r : Rule} (h₁ : r₁.name ≠ r.name) (h₂ : r₂.name ≠ r.name) :
    Rule.exchange r₁ r₂ r = r := by
  rw [exchange, if_neg h₁.symm, if_neg h₂.symm]

/-- Rules with other names stay. -/
theorem map_exchange_of_not_mem {r₁ r₂ : Rule} {rules : List Rule}
    (h₁ : r₁.name ∉ rules.map (·.name)) (h₂ : r₂.name ∉ rules.map (·.name)) :
    rules.map (Rule.exchange r₁ r₂) = rules := by
  refine (List.map_congr_left fun r hr => ?_).trans (List.map_id rules)
  have hmem : r.name ∈ rules.map (·.name) := List.mem_map.2 ⟨r, hr, rfl⟩
  exact Rule.exchange_of_ne (fun h => h₁ (h ▸ hmem)) fun h => h₂ (h ▸ hmem)

section
variable {first between rest before after : List Rule} {r₁ r₂ : Rule}

/-- Where all names are different, two rules change places. -/
theorem map_exchange (h : ((first ++ r₁ :: (between ++ r₂ :: rest)).map (·.name)).Nodup) :
    (first ++ r₁ :: (between ++ r₂ :: rest)).map (Rule.exchange r₁ r₂) =
      first ++ r₂ :: (between ++ r₁ :: rest) := by
  simp only [List.map_append, List.map_cons] at h
  rw [List.nodup_middle, List.nodup_cons, ← List.append_assoc, List.nodup_middle,
    List.nodup_cons] at h
  obtain ⟨hr₁, hr₂, -⟩ := h
  simp only [List.mem_append, List.mem_cons, not_or] at hr₁ hr₂
  obtain ⟨⟨hfirst₁, hbetween₁⟩, hne, hrest₁⟩ := hr₁
  obtain ⟨⟨hfirst₂, hbetween₂⟩, hrest₂⟩ := hr₂
  have hexchange₁ : Rule.exchange r₁ r₂ r₁ = r₂ := if_pos rfl
  have hexchange₂ : Rule.exchange r₁ r₂ r₂ = r₁ := by
    rw [Rule.exchange, if_neg (Ne.symm hne), if_pos rfl]
  rw [List.map_append, List.map_cons, List.map_append, List.map_cons, hexchange₁, hexchange₂,
    map_exchange_of_not_mem hfirst₁ hfirst₂, map_exchange_of_not_mem hbetween₁ hbetween₂,
    map_exchange_of_not_mem hrest₁ hrest₂]

theorem nodup_names_byPriority {rules : List Rule} :
    ((byPriority rules).map (·.name)).Nodup ↔ (rules.map (·.name)).Nodup :=
  ((inOrder_byPriority rules).perm.map _).nodup_iff

/-- A change of rules that keeps their priorities commutes with putting them in
    order. -/
theorem map_byPriority {f : Rule → Rule} {rules : List Rule}
    (h : ∀ r ∈ rules, (f r).priority.rank = r.priority.rank) :
    (byPriority rules).map f = byPriority (rules.map f) :=
  List.map_mergeSort fun a ha b hb => by rw [h a ha, h b hb]

/-- Where names are all different, an exchange of two rules of one priority keeps all
    priorities. -/
theorem rank_exchange {rules : List Rule} (h : (rules.map (·.name)).Nodup) (h₁ : r₁ ∈ rules)
    (h₂ : r₂ ∈ rules) (hrank : r₁.priority.rank = r₂.priority.rank) {r : Rule} (hr : r ∈ rules) :
    (Rule.exchange r₁ r₂ r).priority.rank = r.priority.rank := by
  unfold Rule.exchange
  split_ifs with hname₁ hname₂
  · rw [List.inj_on_of_nodup_map h hr h₁ hname₁, hrank]
  · rw [List.inj_on_of_nodup_map h hr h₂ hname₂, hrank]
  · rfl

/-- **Rules of one priority stand in the order in which they are given.** Where two of
    them are given in each other's place, they change places in the order, too. -/
theorem byPriority_exchange (h : ((first ++ r₁ :: (between ++ r₂ :: rest)).map (·.name)).Nodup)
    (horder : byPriority (first ++ r₁ :: (between ++ r₂ :: rest)) = before ++ r₁ :: r₂ :: after)
    (hrank : r₁.priority.rank = r₂.priority.rank) :
    byPriority (first ++ r₂ :: (between ++ r₁ :: rest)) = before ++ r₂ :: r₁ :: after := by
  have hnames := nodup_names_byPriority.2 h
  rw [horder] at hnames
  rw [← map_exchange h, ← map_byPriority fun r hr => rank_exchange h (by simp) (by simp) hrank hr,
    horder]
  have hadjacent : ((before ++ r₁ :: ([] ++ r₂ :: after)).map (·.name)).Nodup := hnames
  exact map_exchange hadjacent

/-- The rules still make a set. -/
theorem RuleSet.ofRules_exchange {limits : Limits} {defaults : List (String × Data)}
    {name : String} {s : RuleSet}
    (h : ofRules (first ++ r₁ :: (between ++ r₂ :: rest)) limits defaults name = .ok s)
    (horder : s.rules = before ++ r₁ :: r₂ :: after)
    (hrank : r₁.priority.rank = r₂.priority.rank) :
    ofRules (first ++ r₂ :: (between ++ r₁ :: rest)) limits defaults name =
      .ok { s with rules := before ++ r₂ :: r₁ :: after } := by
  obtain ⟨values, hvalues, h⟩ := bind_eq_ok.1 h
  split at h
  · cases h
  · next hnames =>
    cases h
    replace horder : byPriority (first ++ r₁ :: (between ++ r₂ :: rest)) =
      before ++ r₁ :: r₂ :: after := horder
    have hnodup := repeatedName?_nil_eq_none_iff.1 hnames
    have hexchange := byPriority_exchange (nodup_names_byPriority.1 hnodup) horder hrank
    have hnodup' : ((before ++ r₂ :: r₁ :: after).map (·.name)).Nodup := by
      rw [horder] at hnodup
      exact (((List.Perm.swap r₂ r₁ after).append_left before).map _).nodup_iff.1 hnodup
    have hnames' : repeatedName? [] ((before ++ r₂ :: r₁ :: after).map (·.name)) = none :=
      repeatedName?_nil_eq_none_iff.2 hnodup'
    unfold ofRules
    simp only [hexchange, hvalues, hnames']
    rfl

end

end Rulebook
