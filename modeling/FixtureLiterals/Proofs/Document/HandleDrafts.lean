import FixtureLiterals.Document.Handles
import FixtureLiterals.Proofs.Document.Structures

/-!
# Handles are recovered from their documents

Nothing can be left out of a handle definition or of a disposition. Rights are their bits.
-/

namespace FixtureLiterals

open Document Document.Draft

/-- Rights are recovered. -/
theorem Rights.drafts (rights : Rights) : (leaf rights).Drafts rights :=
  (drafts_uint32 rights.bits).map Rights.mk

/-- The draft of a handle definition. -/
def HandleDefinition.draft (definition : HandleDefinition) : Draft := .object [
  ⟨"subtype", none, .leaf definition.subtype⟩,
  ⟨"rights", none, .leaf definition.rights⟩]

/-- A handle definition is recovered. -/
theorem HandleDefinition.drafts (definition : HandleDefinition) :
    definition.draft.Drafts definition := by
  have subtype := drafts_word definition.subtype
  have rights := definition.rights.drafts
  refine recovers_object ["subtype", "rights"] rfl (by decide) rfl ⟨subtype.plain, rights.plain⟩ _
    (fun _ _ _ => rfl) fun depth reading members answered => ?_
  rw [answered.1.required (subtype.yields depth reading),
    answered.2.required (rights.yields depth reading)]
  rfl

/-- The draft of a handle disposition. -/
def HandleDisposition.draft (disposition : HandleDisposition) : Draft := .object [
  ⟨"handle", none, .leaf disposition.handle⟩,
  ⟨"subtype", none, .leaf disposition.subtype⟩,
  ⟨"rights", none, .leaf disposition.rights⟩]

/-- A handle disposition is recovered. -/
theorem HandleDisposition.drafts (disposition : HandleDisposition) :
    disposition.draft.Drafts disposition := by
  have handle := drafts_uint64 disposition.handle
  have subtype := drafts_word disposition.subtype
  have rights := disposition.rights.drafts
  refine recovers_object ["handle", "subtype", "rights"] rfl (by decide) rfl
    ⟨handle.plain, subtype.plain, rights.plain⟩ _ (fun _ _ _ => rfl)
    fun depth reading members answered => ?_
  obtain ⟨handleAnswered, subtypeAnswered, rightsAnswered⟩ := answered
  rw [handleAnswered.required (handle.yields depth reading),
    subtypeAnswered.required (subtype.yields depth reading),
    rightsAnswered.required (rights.yields depth reading)]
  rfl

end FixtureLiterals
