import LedgerClient.Payload.Basic
import LedgerClient.Proofs.Result

/-!
# Payloads as they are built

A payload that was built from named values has one value for each field of its layout.
-/

namespace LedgerClient.Payload

/-- There is one value for each field. -/
def IsComplete (p : Payload) : Prop := p.values.length = p.variant.layout.length

/-- Metadata is read whatever the value is, also when it is absent. -/
theorem coerceField_metadata_eq (name : String) (isOptional : Bool) (v : Value) :
    coerceField ⟨name, .metadata, isOptional⟩ v =
      Metadata.pairs v >>= fun ws => .ok (.tuple ws) := by
  cases v <;> rfl

theorem length_of_coerceFields {fields : List Field} {values coerced : List Value}
    (hlen : values.length = fields.length) (h : coerceFields fields values = .ok coerced) :
    coerced.length = fields.length := by
  induction fields generalizing values coerced with
  | nil =>
    cases h
    rfl
  | cons f fields ih =>
    cases values with
    | nil => cases hlen
    | cons v rest =>
      simp only [coerceFields, bind_eq_ok, pure_eq_ok] at h
      obtain ⟨first, -, others, hothers, rfl⟩ := h
      rw [List.length_cons, List.length_cons, ih (Nat.succ.inj hlen) hothers]

theorem length_of_mapM {α β : Type} {f : α → Option β} {xs : List α} {ys : List β}
    (h : xs.mapM f = some ys) : ys.length = xs.length := by
  induction xs generalizing ys with
  | nil =>
    cases h
    rfl
  | cons x xs ih =>
    simp only [List.mapM_cons, Option.bind_eq_bind, Option.bind_eq_some_iff, Option.pure_def,
      Option.some.injEq] at h
    obtain ⟨y, -, others, hothers, rfl⟩ := h
    rw [List.length_cons, List.length_cons, ih hothers]

theorem isComplete_of_build {variant : Variant} {given : List (String × Value)} {p : Payload}
    (h : build variant given = .ok p) : p.IsComplete := by
  simp only [build] at h
  split at h
  · cases h
  · split at h
    · cases h
    · next values hvalues =>
      simp only [bind_eq_ok, pure_eq_ok] at h
      obtain ⟨coerced, hcoerced, rfl⟩ := h
      exact length_of_coerceFields (length_of_mapM hvalues) hcoerced

end LedgerClient.Payload
