import Mathlib.Logic.Function.Basic

/-!
# Results that are rebuilt when a digest changes

A result is built from a source and is to follow it. Next to it stands the digest
of the source for which a change was noticed last. A touch changes the source and
rebuilds the result only if the digest is another one. Where the result is also
rebuilt without recording the digest, a later touch can bring the source back to
the recorded digest and is then missed.
-/

namespace XWrt.Foundation

/-- A source, the digest recorded last, and the result. -/
structure DigestCache (σ δ β : Type*) where
  source : σ
  sum : Option δ
  built : β

namespace DigestCache

variable {σ δ β : Type*} [DecidableEq δ] (digest : σ → δ) (build : σ → β → β)

/-- Building again changes nothing. -/
def Current (s : DigestCache σ δ β) : Prop := build s.source s.built = s.built

/-- Change the source; rebuild and record the digest if it is not the recorded one. -/
def touch (change : σ → σ) (s : DigestCache σ δ β) : DigestCache σ δ β :=
  let source := change s.source
  if s.sum = some (digest source) then { s with source := source }
  else ⟨source, some (digest source), build source s.built⟩

def touchAll (changes : List (σ → σ)) (s : DigestCache σ δ β) : DigestCache σ δ β :=
  changes.foldl (fun s change => touch digest build change s) s

/-- Change the source and rebuild without recording the digest. -/
def rebuild (change : σ → σ) (s : DigestCache σ δ β) : DigestCache σ δ β :=
  { s with source := change s.source, built := build (change s.source) s.built }

/-- The source after some changes. -/
def changed (changes : List (σ → σ)) (source : σ) : σ := changes.foldl (fun source change => change source) source

/-- Every change ends in a source with the recorded digest. -/
def Unnoticed (sum : Option δ) : List (σ → σ) → σ → Prop
  | [], _ => True
  | change :: rest, source => sum = some (digest (change source)) ∧ Unnoticed sum rest (change source)

/-- Nothing is noticed, and another result was to be built. -/
def Missed (changes : List (σ → σ)) (s : DigestCache σ δ β) : Prop :=
  Unnoticed digest s.sum changes s.source ∧ build (changed changes s.source) s.built ≠ build s.source s.built

section Rules

variable {digest : σ → δ} {build : σ → β → β} {change : σ → σ} {changes : List (σ → σ)} {s : DigestCache σ δ β}

theorem touchAll_source : (touchAll digest build changes s).source = changed changes s.source := by
  induction changes generalizing s with
  | nil => rfl
  | cons change rest ih =>
      have here : (touch digest build change s).source = change s.source := by
        unfold touch
        simp only
        split <;> rfl
      exact ih.trans (congrArg (changed rest) here)

/-- A result that was just recorded is never touched in vain. -/
theorem touchAll_recorded (injective : Function.Injective digest)
    (absorbs : ∀ first second built, build second (build first built) = build second built)
    (recorded : s.sum = some (digest s.source)) (current : Current build s) :
    Current build (touchAll digest build changes s) := by
  induction changes generalizing s with
  | nil => exact current
  | cons change rest ih =>
      have here : touch digest build change s =
          if s.sum = some (digest (change s.source)) then { s with source := change s.source }
          else ⟨change s.source, some (digest (change s.source)), build (change s.source) s.built⟩ := rfl
      rw [touchAll, List.foldl_cons, here]
      by_cases same : s.sum = some (digest (change s.source))
      · have back : s.source = change s.source := injective (Option.some.inj (recorded.symm.trans same))
        rw [if_pos same]
        refine ih same ?_
        rw [Current, ← back]
        exact current
      · rw [if_neg same]
        exact ih rfl (absorbs _ _ _)

/-- A run of touches rebuilds the result unless nothing is noticed. -/
theorem touchAll_current (injective : Function.Injective digest)
    (absorbs : ∀ first second built, build second (build first built) = build second built) :
    Unnoticed digest s.sum changes s.source ∧ (touchAll digest build changes s).built = s.built ∨
      ¬ Unnoticed digest s.sum changes s.source ∧ Current build (touchAll digest build changes s) := by
  induction changes generalizing s with
  | nil => exact .inl ⟨trivial, rfl⟩
  | cons change rest ih =>
      have here : touchAll digest build (change :: rest) s = touchAll digest build rest
          (if s.sum = some (digest (change s.source)) then { s with source := change s.source }
          else ⟨change s.source, some (digest (change s.source)), build (change s.source) s.built⟩) := rfl
      rw [here]
      by_cases same : s.sum = some (digest (change s.source))
      · rw [if_pos same]
        rcases @ih { s with source := change s.source } with ⟨unnoticed, kept⟩ | ⟨noticed, current⟩
        · exact .inl ⟨⟨same, unnoticed⟩, kept⟩
        · exact .inr ⟨fun both => noticed both.2, current⟩
      · rw [if_neg same]
        exact .inr ⟨fun both => same both.1, touchAll_recorded injective absorbs rfl (absorbs _ _ _)⟩

/-- Exactly the missed touches leave a result that was current behind its source. -/
theorem touchAll_current_iff (injective : Function.Injective digest)
    (absorbs : ∀ first second built, build second (build first built) = build second built)
    (current : Current build s) :
    Current build (touchAll digest build changes s) ↔ ¬ Missed digest build changes s := by
  rcases @touchAll_current _ _ _ _ _ _ changes s injective absorbs with ⟨unnoticed, kept⟩ | ⟨noticed, now⟩
  · have missed : Missed digest build changes s ↔
        build (changed changes s.source) s.built ≠ s.built := by
      rw [Missed, and_iff_right unnoticed, current]
    rw [missed, not_not, Current, kept, touchAll_source]
  · exact iff_of_true now fun missed => noticed missed.1

omit [DecidableEq δ] in
theorem rebuild_current (absorbs : ∀ first second built, build second (build first built) = build second built) :
    Current build (rebuild build change s) :=
  absorbs _ _ _

end Rules

end DigestCache

end XWrt.Foundation
