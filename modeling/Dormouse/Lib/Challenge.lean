import Mathlib.Data.List.Basic

/-!
# Dormouse.Lib.Challenge

**Proofs of a shared key over fresh nonces**: a keyed MAC makes a proof of a role and a nonce,
and each side of a connection accepts only the proof of the other role over the nonce that it
drew itself.

The MAC is ideal: no two messages have one proof, and a proof that nobody has made yet is in
nobody's hands. An accepted proof then has been made, in the other role and over this very
nonce; and where nonces are distinct, one proof is accepted at one place only.
-/

namespace Dormouse

/-- The two roles in which a proof is made. -/
inductive ProofRole
  | client
  | server
  deriving DecidableEq

variable {ν π : Type*}

/-- A MAC without collisions. -/
def Collisionless (prove : ProofRole → ν → π) : Prop :=
  ∀ role nonce role' nonce', prove role nonce = prove role' nonce' → role = role' ∧ nonce = nonce'

/-- Whoever has `proof` has it from someone who made it, if it is one. -/
def Unforged (prove : ProofRole → ν → π) (made : ProofRole → ν → Prop) (proof : π) : Prop :=
  ∀ role nonce, proof = prove role nonce → made role nonce

variable {prove : ProofRole → ν → π} {made : ProofRole → ν → Prop} {role role' : ProofRole}
  {nonce nonce' : ν} {proof : π}

/-- Who has a proof only by having heard it has one that was made. -/
theorem Collisionless.unforged (h : Collisionless prove) {Heard : π → Prop}
    (hmade : ∀ p, Heard p → ∃ role nonce, p = prove role nonce ∧ made role nonce)
    (hheard : (∃ role nonce, proof = prove role nonce) → Heard proof) :
    Unforged prove made proof := by
  intro role nonce hproof
  obtain ⟨role', nonce', hproof', hmade'⟩ := hmade proof (hheard ⟨role, nonce, hproof⟩)
  obtain ⟨rfl, rfl⟩ := h _ _ _ _ (hproof.symm.trans hproof')
  exact hmade'

/-- A proof accepted twice is accepted in one role, and over one nonce. -/
theorem Collisionless.accepted (h : Collisionless prove) (haccepted : proof = prove role nonce)
    (haccepted' : proof = prove role' nonce') : role = role' ∧ nonce = nonce' :=
  h _ _ _ _ (haccepted.symm.trans haccepted')

/-- Domain separation: the tags are of one length and differ. -/
theorem Collisionless.of_tags {α : Type*} (tag : ProofRole → List α) {mac : List α → π}
    (hlength : (tag .client).length = (tag .server).length) (htags : tag .client ≠ tag .server)
    (hmac : ∀ a b, mac a = mac b → a = b) :
    Collisionless fun role (nonce : List α) => mac (tag role ++ nonce) := by
  intro role nonce role' nonce' heq
  have hlengths : (tag role).length = (tag role').length := by
    cases role <;> cases role' <;> simp [hlength]
  obtain ⟨htag, hnonce⟩ := List.append_inj (hmac _ _ heq) hlengths
  refine ⟨?_, hnonce⟩
  cases role with
  | client => cases role' with
    | client => rfl
    | server => exact absurd htag htags
  | server => cases role' with
    | client => exact absurd htag.symm htags
    | server => rfl

end Dormouse
