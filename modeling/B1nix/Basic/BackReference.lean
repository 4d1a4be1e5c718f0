import Mathlib

namespace B1nix.BackReference

open List

variable {α : Type}

def copyMatch (out : List α) (off : Nat) : Nat → List α
  | 0 => out
  | n + 1 => copyMatch (out ++ (out[out.length - off]?).toList) off n

lemma copyMatch_of_match (src : List α) (pos off : Nat) (hpos : 0 < off) (hoff : off ≤ pos) :
    ∀ n, pos + n ≤ src.length → (∀ k < n, src[pos - off + k]? = src[pos + k]?) →
      copyMatch (src.take pos) off n = src.take (pos + n) := by
  intro n
  induction n generalizing pos with
  | zero => intro _ _; rfl
  | succ n ih =>
    intro hlen hmt
    have hlt : pos < src.length := by omega
    have htk : (src.take pos).length = pos := by rw [length_take]; omega
    have hby : (src.take pos)[pos - off]? = some src[pos] := by
      rw [getElem?_take_of_lt (by omega),← getElem?_eq_getElem hlt]
      simpa using hmt 0 (by omega)
    have hnx : src.take pos ++ ((src.take pos)[(src.take pos).length - off]?).toList =
        src.take (pos + 1) := by
      rw [htk,hby,take_add_one,getElem?_eq_getElem hlt]
    rw [copyMatch,hnx,ih (pos + 1) (by omega) (by omega)]
    · congr 1
      omega
    intro k hk
    have h := hmt (k + 1) (by omega)
    rw [show pos + 1 - off + k = pos - off + (k + 1) by omega,
      show pos + 1 + k = pos + (k + 1) by omega]
    exact h

end B1nix.BackReference
