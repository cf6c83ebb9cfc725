import Mathlib.Data.List.Forall2

/-!
# Lists that are related item by item

Literals, documents and schemas are compared with what they were made of item by item, in
order. These are the few facts about such lists that no library has.
-/

namespace FixtureLiterals

/-- A relation between lists may be weakened at each of their members. -/
theorem forall₂_imp_of_mem {α β : Type} {strong weak : α → β → Prop} {left : List α}
    {right : List β}
    (weaken : ∀ first ∈ left, ∀ second ∈ right, strong first second → weak first second)
    (related : List.Forall₂ strong left right) : List.Forall₂ weak left right := by
  induction related with
  | nil => exact .nil
  | cons head _ inductionHypothesis =>
    refine .cons (weaken _ List.mem_cons_self _ List.mem_cons_self head) ?_
    exact inductionHypothesis fun first member second listed =>
      weaken first (List.mem_cons_of_mem _ member) second (List.mem_cons_of_mem _ listed)

/-- Each member of the second list is related to one of the first. -/
theorem exists_of_mem_right {α β : Type} {relation : α → β → Prop} {left : List α}
    {right : List β} (related : List.Forall₂ relation left right) {second : β}
    (listed : second ∈ right) : ∃ first ∈ left, relation first second := by
  induction related with
  | nil => exact nomatch listed
  | cons head _ inductionHypothesis =>
    rcases List.mem_cons.mp listed with rfl | later
    · exact ⟨_, List.mem_cons_self, head⟩
    · obtain ⟨first, member, matched⟩ := inductionHypothesis later
      exact ⟨first, List.mem_cons_of_mem _ member, matched⟩

/-- Each member of the first list is related to one of the second. -/
theorem exists_of_mem_left {α β : Type} {relation : α → β → Prop} {left : List α}
    {right : List β} (related : List.Forall₂ relation left right) {first : α}
    (listed : first ∈ left) : ∃ second ∈ right, relation first second := by
  have flipped : List.Forall₂ (fun second first => relation first second) right left := related.flip
  exact exists_of_mem_right flipped listed

/-- Two relations to one list relate what corresponds to the same member. -/
theorem forall₂_transfer {α β γ : Type} {first : α → β → Prop} {second : α → γ → Prop}
    {result : β → γ → Prop} (combine : ∀ source one other, first source one → second source other →
      result one other)
    {sources : List α} {ones : List β} {others : List γ}
    (left : List.Forall₂ first sources ones) (right : List.Forall₂ second sources others) :
    List.Forall₂ result ones others := by
  induction left generalizing others with
  | nil =>
    cases right
    exact .nil
  | cons head _ inductionHypothesis =>
    obtain _ | ⟨matched, rest⟩ := right
    exact .cons (combine _ _ _ head matched) (inductionHypothesis rest)

/-- Each of some inputs has a result exactly if there is a list of results for all. -/
theorem exists_forall₂_iff {α β : Type} (relation : α → β → Prop) (inputs : List α) :
    (∃ results, List.Forall₂ relation inputs results) ↔
      ∀ input ∈ inputs, ∃ result, relation input result := by
  induction inputs with
  | nil => simp
  | cons input inputs inductionHypothesis =>
    rw [List.forall_mem_cons, ← inductionHypothesis]
    constructor
    · rintro ⟨_, _ | ⟨first, others⟩⟩
      exact ⟨⟨_, first⟩, ⟨_, others⟩⟩
    · rintro ⟨⟨result, first⟩, ⟨results, others⟩⟩
      exact ⟨result :: results, .cons first others⟩

/-- Lists that differ at one place are related by whatever relates equals, and what is there. -/
theorem forall₂_replace {α : Type} {relation : α → α → Prop} (refl : ∀ item, relation item item)
    (before after : List α) {item changed : α} (related : relation item changed) :
    List.Forall₂ relation (before ++ item :: after) (before ++ changed :: after) := by
  induction before with
  | nil => exact .cons related (List.forall₂_same.mpr fun other _ => refl other)
  | cons first before inductionHypothesis => exact .cons (refl first) inductionHypothesis

/-- Lists that differ at one place and have the same results share the result at that place. -/
theorem exists_shared_at {α β : Type} {left right : α → β → Prop} {item changed : α}
    (before after : List α) {results : List β}
    (lefts : List.Forall₂ left (before ++ item :: after) results)
    (rights : List.Forall₂ right (before ++ changed :: after) results) :
    ∃ result, left item result ∧ right changed result := by
  induction before generalizing results with
  | nil =>
    cases lefts with
    | cons here _ =>
      cases rights with
      | cons there _ => exact ⟨_, here, there⟩
  | cons first before inductionHypothesis =>
    cases lefts with
    | cons _ later =>
      cases rights with
      | cons _ others => exact inductionHypothesis later others

/-- Lists that are related item by item and have the same results share the result of each pair. -/
theorem exists_shared_of_mem {α β γ : Type} {related : α → β → Prop} {left : α → γ → Prop}
    {right : β → γ → Prop} {firsts : List α} {seconds : List β} {results : List γ}
    (pairs : List.Forall₂ related firsts seconds) (lefts : List.Forall₂ left firsts results)
    (rights : List.Forall₂ right seconds results) {first : α} (listed : first ∈ firsts) :
    ∃ second ∈ seconds, ∃ result, related first second ∧ left first result ∧
      right second result := by
  induction pairs generalizing results with
  | nil => exact nomatch listed
  | cons head _ inductionHypothesis =>
    obtain _ | ⟨here, others⟩ := lefts
    obtain _ | ⟨there, rest⟩ := rights
    rcases List.mem_cons.mp listed with rfl | later
    · exact ⟨_, List.mem_cons_self, _, head, here, there⟩
    · obtain ⟨second, member, shared⟩ := inductionHypothesis others rest later
      exact ⟨second, List.mem_cons_of_mem _ member, shared⟩

/-- Lists whose members have the same images, one by one, have the same list of images. -/
theorem map_eq_map_of_forall₂ {α β γ : Type} {relation : α → β → Prop} {left : α → γ}
    {right : β → γ} (same : ∀ first second, relation first second → left first = right second)
    {ones : List α} {others : List β} (related : List.Forall₂ relation ones others) :
    ones.map left = others.map right := by
  induction related with
  | nil => rfl
  | cons head _ inductionHypothesis =>
    rw [List.map_cons, List.map_cons, same _ _ head, inductionHypothesis]

end FixtureLiterals
