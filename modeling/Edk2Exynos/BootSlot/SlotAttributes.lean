/-
The attribute words of the boot entries as fields: what each of the
library's updates does to priority, retry count and the three flags, and
that it leaves every other bit alone.

Each update of a word (`activateAttributes`, `retireAttributes`,
`clearAttributes`, `firstBootAttributes` and the ACTIVE bit of
`MarkPtnActive`) has one lemma that says it all; the slot functions'
proofs use these and never look at a bit again.
-/
import Edk2Exynos.BootSlot.Slots
import Edk2Exynos.Lib.Masks

namespace Edk2Exynos.BootSlot

open Lib

-- ============================================================ the fields

/-- The attributes have the bit ACTIVE. -/
def IsActive (a : UINT64) : Prop := a &&& partAttActiveVal ≠ 0

/-- The attributes have the bit SUCCESSFUL. -/
def IsSuccessful (a : UINT64) : Prop := a &&& partAttSuccessfulVal ≠ 0

/-- The attributes have the bit UNBOOTABLE. -/
def IsUnbootable (a : UINT64) : Prop := a &&& partAttUnbootableVal ≠ 0

/-- The retry count of an attribute word. -/
def retryCount (a : UINT64) : UINT64 :=
  (a &&& partAttMaxRetryCountVal) >>> partAttMaxRetryCntBit

instance (a : UINT64) : Decidable (IsActive a) :=
  inferInstanceAs (Decidable (_ ≠ _))

instance (a : UINT64) : Decidable (IsSuccessful a) :=
  inferInstanceAs (Decidable (_ ≠ _))

instance (a : UINT64) : Decidable (IsUnbootable a) :=
  inferInstanceAs (Decidable (_ ≠ _))

/-- All bits of the slot fields. -/
def slotMask : UINT64 :=
  partAttPriorityVal ||| partAttActiveVal ||| partAttMaxRetryCountVal
    ||| partAttSuccessfulVal ||| partAttUnbootableVal

/-- The bits of priority and ACTIVE. -/
def activeMask : UINT64 := partAttPriorityVal ||| partAttActiveVal

/-- `a'` is `a` but for bits of `m`. -/
def SameOutside (m a a' : UINT64) : Prop := a' &&& ~~~m = a &&& ~~~m

theorem SameOutside.refl (m a : UINT64) : SameOutside m a a := rfl

/-- What two updates leave alone, both do. -/
theorem SameOutside.trans {m a a' a'' : UINT64} (h : SameOutside m a a')
    (h' : SameOutside m a' a'') : SameOutside m a a'' :=
  Eq.trans h' h

/-- A field outside `m` is kept. -/
theorem SameOutside.field {m a a' p : UINT64} (h : SameOutside m a a')
    (hp : ~~~m &&& p = p) : a' &&& p = a &&& p := by
  unfold SameOutside at h
  rw [← hp, ← BitVec.and_assoc, h, BitVec.and_assoc, hp]

/-- The active priority of a boot entry: zero unless it is ACTIVE. -/
def Selectable (a : UINT64) : Prop := IsActive a ∧ 0 < priority a

instance (a : UINT64) : Decidable (Selectable a) :=
  inferInstanceAs (Decidable (_ ∧ _))

-- =========================================================== the updates

/-- A word as activation leaves it. -/
structure Activated (a : UINT64) : Prop where
  active : IsActive a
  priority : priority a = maxPriority
  retry : retryCount a = 7
  bootable : ¬ IsUnbootable a

/-- The optional step that clears the success bit. -/
def resetSuccess (resetSuccessBit : Bool) (a : UINT64) : UINT64 :=
  if resetSuccessBit ∧ a &&& partAttSuccessfulVal ≠ 0 then
    a &&& ~~~partAttSuccessfulVal else a

/-- The optional step that sets it. -/
def setSuccess (setSuccessBit : Bool) (a : UINT64) : UINT64 :=
  if setSuccessBit ∧ a &&& partAttSuccessfulVal = 0 then
    a ||| partAttSuccessfulVal else a

/-- Together they keep the fields without the success bit. -/
theorem successSteps_keep (resetSuccessBit setSuccessBit : Bool)
    (a : UINT64) {p : UINT64} (h : partAttSuccessfulVal &&& p = 0) :
    setSuccess setSuccessBit (resetSuccess resetSuccessBit a) &&& p
      = a &&& p := by
  have hreset : resetSuccess resetSuccessBit a &&& p = a &&& p := by
    unfold resetSuccess
    split
    · exact and_not_keep h
    · rfl
  unfold setSuccess
  split
  · exact (or_and_keep h).trans hreset
  · exact hreset

/-- The bit is kept where it is not to be reset. -/
theorem resetSuccess_successful (resetSuccessBit : Bool) (a : UINT64) :
    IsSuccessful (resetSuccess resetSuccessBit a)
      ↔ ¬ resetSuccessBit ∧ IsSuccessful a := by
  have hclear : a &&& ~~~partAttSuccessfulVal
      &&& partAttSuccessfulVal = 0 := and_and_clear (by decide)
  unfold IsSuccessful resetSuccess
  split
  next h =>
    rw [hclear]
    simp [h.1]
  next h =>
    refine ⟨fun ha => ⟨fun hr => h ⟨hr, ha⟩, ha⟩, fun ha => ha.2⟩

/-- The bit is set where it is to be set. -/
theorem setSuccess_successful (setSuccessBit : Bool) (a : UINT64) :
    IsSuccessful (setSuccess setSuccessBit a)
      ↔ setSuccessBit ∨ IsSuccessful a := by
  have hfill : (a ||| partAttSuccessfulVal) &&& partAttSuccessfulVal
      = partAttSuccessfulVal := or_and_fill (by decide)
  unfold IsSuccessful setSuccess
  split
  next h =>
    rw [hfill]
    exact ⟨fun _ => Or.inl h.1, fun _ => by decide⟩
  next h =>
    refine ⟨Or.inr, fun ha => ?_⟩
    rcases ha with hs | ha
    · exact fun hz => h ⟨hs, hz⟩
    · exact ha

/-- What activation leaves of a word. -/
theorem activateAttributes_spec (resetSuccessBit setSuccessBit : Bool)
    (a : UINT64) :
    Activated (activateAttributes resetSuccessBit setSuccessBit a)
      ∧ (IsSuccessful (activateAttributes resetSuccessBit setSuccessBit a)
        ↔ setSuccessBit ∨ (¬ resetSuccessBit ∧ IsSuccessful a))
      ∧ SameOutside slotMask a
        (activateAttributes resetSuccessBit setSuccessBit a) := by
  have hdef : activateAttributes resetSuccessBit setSuccessBit a
      = setSuccess setSuccessBit (resetSuccess resetSuccessBit
        ((a ||| (partAttPriorityVal ||| partAttActiveVal
          ||| partAttMaxRetryCountVal)) &&& ~~~partAttUnbootableVal)) := rfl
  rw [hdef]
  refine ⟨⟨?_, ?_, ?_, ?_⟩, ?_, ?_⟩
  · unfold IsActive
    rw [successSteps_keep _ _ _ (by decide),
      and_and_keep (by decide), or_and_fill (by decide)]
    decide
  · unfold priority
    rw [successSteps_keep _ _ _ (by decide),
      and_and_keep (by decide), or_and_fill (by decide)]
    decide
  · unfold retryCount
    rw [successSteps_keep _ _ _ (by decide),
      and_and_keep (by decide), or_and_fill (by decide)]
    decide
  · unfold IsUnbootable
    rw [successSteps_keep _ _ _ (by decide),
      and_and_clear (by decide)]
    decide
  · rw [setSuccess_successful, resetSuccess_successful]
    unfold IsSuccessful
    rw [and_and_keep (by decide), or_and_keep (by decide)]
  · unfold SameOutside
    rw [successSteps_keep _ _ _ (by decide),
      and_and_keep (by decide), or_and_keep (by decide)]

/-- What the first boot leaves of a word. -/
theorem firstBootAttributes_spec (a : UINT64) :
    Activated (firstBootAttributes a)
      ∧ ¬ IsSuccessful (firstBootAttributes a)
      ∧ SameOutside slotMask a (firstBootAttributes a) := by
  have hfield : ∀ p, (partAttPriorityVal ||| partAttActiveVal
      ||| partAttMaxRetryCountVal) &&& p = p →
      firstBootAttributes a &&& p = p := fun p hp => or_and_fill hp
  have hother : ∀ p, (partAttPriorityVal ||| partAttActiveVal
      ||| partAttMaxRetryCountVal) &&& p = 0 →
      (~~~partAttSuccessfulVal &&& ~~~partAttUnbootableVal) &&& p = 0 →
      firstBootAttributes a &&& p = 0 := by
    intro p h1 h2
    unfold firstBootAttributes
    rw [or_and_keep h1, and_and_clear h2]
  refine ⟨⟨?_, ?_, ?_, ?_⟩, ?_, ?_⟩
  · unfold IsActive
    rw [hfield _ (by decide)]
    decide
  · unfold priority
    rw [hfield _ (by decide)]
    decide
  · unfold retryCount
    rw [hfield _ (by decide)]
    decide
  · unfold IsUnbootable
    rw [hother _ (by decide) (by decide)]
    decide
  · unfold IsSuccessful
    rw [hother _ (by decide) (by decide)]
    decide
  · unfold SameOutside firstBootAttributes
    rw [or_and_keep (by decide), and_and_keep (by decide)]

/-- What activation of the other slot leaves of a word. -/
theorem retireAttributes_spec (a : UINT64) :
    ¬ IsActive (retireAttributes a)
      ∧ priority (retireAttributes a) = maxPriority - 1
      ∧ SameOutside activeMask a (retireAttributes a) := by
  refine ⟨?_, ?_, ?_⟩
  · unfold IsActive retireAttributes
    rw [or_and_keep (by decide), and_and_clear (by decide)]
    decide
  · unfold priority retireAttributes
    rw [or_and_store (and_and_clear (by decide))]
    decide
  · unfold SameOutside retireAttributes
    rw [or_and_keep (by decide), and_and_keep (by decide)]

/-- What `ClearUnbootable` leaves of a word. -/
theorem clearAttributes_spec (a : UINT64) :
    ¬ IsUnbootable (clearAttributes a) ∧ retryCount (clearAttributes a) = 7
      ∧ SameOutside (partAttUnbootableVal ||| partAttMaxRetryCountVal) a
        (clearAttributes a) := by
  refine ⟨?_, ?_, ?_⟩
  · unfold IsUnbootable clearAttributes
    rw [or_and_keep (by decide), and_and_clear (by decide)]
    decide
  · unfold retryCount clearAttributes
    rw [or_and_fill (by decide)]
    decide
  · unfold SameOutside clearAttributes
    rw [or_and_keep (by decide), and_and_keep (by decide)]

end Edk2Exynos.BootSlot
