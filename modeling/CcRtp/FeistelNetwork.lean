/-
# Feistel networks

A state of two halves goes through rounds; a round mixes one half with a function of the other, a
function that depends on a round key, and then the halves change places.  Only the mixing has to be
invertible, not the function that it uses.

* `foldl_cycle` : two rounds at a time need no exchange of the halves;
* `rounds_inverse`, `inverse_rounds` : the rounds with inverse mixing and the keys in reverse order
  undo the rounds, with the halves exchanged.
-/
import Mathlib.Data.Prod.Basic
import Mathlib.Logic.Function.Basic
import Mathlib.Data.List.Basic

/-- How a half is mixed with a round key and the other half, and how that is undone. -/
structure FeistelNetwork (κ α : Type*) where
  mix : κ → α → α → α
  unmix : κ → α → α → α
  unmix_mix : ∀ k a b, unmix k a (mix k a b) = b
  mix_unmix : ∀ k a b, mix k a (unmix k a b) = b

namespace FeistelNetwork

variable {κ α : Type*} (N : FeistelNetwork κ α)

/-- A round. -/
def round (s : α × α) (k : κ) : α × α := (N.mix k s.1 s.2, s.1)

/-- The rounds with the keys of a list. -/
def rounds (keys : List κ) (s : α × α) : α × α := keys.foldl N.round s

/-- The first key is used in the first round. -/
theorem rounds_cons (k : κ) (keys : List κ) (s : α × α) :
    N.rounds (k :: keys) s = N.rounds keys (N.round s k) := rfl

/-- The rounds with two lists of keys, one behind the other. -/
theorem rounds_append (keys keys' : List κ) (s : α × α) :
    N.rounds (keys ++ keys') s = N.rounds keys' (N.rounds keys s) := List.foldl_append

/-- The network that undoes the mixing. -/
def inverse : FeistelNetwork κ α where
  mix := N.unmix
  unmix := N.mix
  unmix_mix := N.mix_unmix
  mix_unmix := N.unmix_mix

/-- A round of the inverse network undoes a round. -/
theorem inverse_round (s : α × α) (k : κ) :
    N.inverse.round (N.round s k).swap k = s.swap := by
  show (N.unmix k s.1 (N.mix k s.1 s.2), s.1) = (s.2, s.1)
  rw [N.unmix_mix]

/-- **The rounds are undone** by the inverse network, with the keys in reverse order. -/
theorem rounds_inverse (keys : List κ) (s : α × α) :
    N.inverse.rounds keys.reverse (N.rounds keys s).swap = s.swap := by
  induction keys generalizing s with
  | nil => rfl
  | cons k keys ih =>
      rw [rounds_cons, List.reverse_cons, rounds_append, ih]
      exact N.inverse_round s k

/-- The other way round: the inverse rounds come first. -/
theorem inverse_rounds (keys : List κ) (s : α × α) :
    N.rounds keys (N.inverse.rounds keys.reverse s).swap = s.swap := by
  have hundone := N.inverse.rounds_inverse keys.reverse s
  rw [List.reverse_reverse] at hundone
  exact hundone

/-- Two rounds without an exchange of the halves. -/
def cycle (s : α × α) (k k' : κ) : α × α :=
  let b := N.mix k s.1 s.2
  let a := N.mix k' b s.1
  (a, b)

/-- A cycle is two rounds, with the halves back in their places. -/
theorem cycle_eq_rounds (s : α × α) (k k' : κ) : N.cycle s k k' = N.rounds [k, k'] s := rfl

/-- **Cycles** over a list are rounds with the keys of all cycles. -/
theorem foldl_cycle {ι : Type*} (key key' : ι → κ) (l : List ι) (s : α × α) :
    l.foldl (fun s i => N.cycle s (key i) (key' i)) s =
      N.rounds (l.flatMap (fun i => [key i, key' i])) s := by
  induction l generalizing s with
  | nil => rfl
  | cons i l ih =>
      rw [List.foldl_cons, ih, List.flatMap_cons, rounds_append, cycle_eq_rounds]

end FeistelNetwork
