import Mathlib
namespace B1nix

def pageSize : Nat := 4096

def sectorSize : Nat := 512

def sectorsPerPage : Nat := pageSize / sectorSize

def lz4CompressBound (n : Nat) : Nat := n + n / 255 + 16

lemma sectorsPerPage_eq : sectorsPerPage = 8 := by decide

lemma sectorSize_eq : sectorSize = 512 := by decide

lemma pageSize_eq : pageSize = 4096 := by decide

lemma sector_end_le {s t : Nat} (h : s < t) : s * 512 + 512 ≤ t * 512 := by
  rw [← Nat.succ_mul]
  exact Nat.mul_le_mul_right _ h

end B1nix
