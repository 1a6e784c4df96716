import OctopusPallets.Infra.Codec

/-!
# The SCALE encoding

Compact integers take one, two or four bytes, or a byte count and that many bytes; the two low bits
of the first byte select the mode. Lists stand behind their compact length.
-/

namespace Infra.Scale

/-! ## Compact integers -/

/-- The number of bytes of a compact integer above the four-byte mode. -/
def bytesNeeded (n : Nat) : Nat := Nat.log2 n / 8 + 1

theorem lt_pow_bytesNeeded (n : Nat) : n < 256 ^ bytesNeeded n := by
  have hlog : n < 2 ^ (Nat.log2 n + 1) := Nat.lt_log2_self
  have hexp : Nat.log2 n + 1 ≤ 8 * bytesNeeded n := by
    unfold bytesNeeded
    omega
  calc n < 2 ^ (Nat.log2 n + 1) := hlog
    _ ≤ 2 ^ (8 * bytesNeeded n) := Nat.pow_le_pow_right (by decide) hexp
    _ = 256 ^ bytesNeeded n := by rw [Nat.pow_mul]

theorem four_le_bytesNeeded {n : Nat} (h : 2 ^ 30 ≤ n) : 4 ≤ bytesNeeded n := by
  have hlog : 30 ≤ Nat.log2 n := (Nat.le_log2 (by omega)).mpr h
  unfold bytesNeeded
  omega

/-- The two low bits of the first byte select the mode. -/
def encodeCompact (n : Nat) : List UInt8 :=
  if n < 2 ^ 6 then leBytes 1 (4 * n)
  else if n < 2 ^ 14 then leBytes 2 (4 * n + 1)
  else if n < 2 ^ 30 then leBytes 4 (4 * n + 2)
  else UInt8.ofNat (4 * (bytesNeeded n - 4) + 3) :: leBytes (bytesNeeded n) n

def decodeCompact (bytes : List UInt8) : Option (Nat × List UInt8) :=
  match bytes with
  | [] => none
  | first :: rest =>
    match first.toNat % 4 with
    | 0 => (takeLe 1 bytes).map fun r => (r.1 / 4, r.2)
    | 1 => (takeLe 2 bytes).map fun r => (r.1 / 4, r.2)
    | 2 => (takeLe 4 bytes).map fun r => (r.1 / 4, r.2)
    | _ => takeLe (first.toNat / 4 + 4) rest

/-- What the three short modes share: `n` behind the mode `m`, in `k` bytes. -/
theorem takeLe_short {k n m : Nat} (rest : List UInt8) (hm : m < 4) (h : 4 * n + m < 256 ^ k) :
    (takeLe k (leBytes k (4 * n + m) ++ rest)).map (fun r => (r.1 / 4, r.2)) = some (n, rest) := by
  have hdiv : (4 * n + m) / 4 = n := by omega
  rw [takeLe_leBytes _ _ _ h, Option.map_some, hdiv]

theorem toNat_mod_four {n m : Nat} (hm : m < 4) : (UInt8.ofNat (4 * n + m)).toNat % 4 = m := by
  rw [UInt8.toNat_ofNat']
  omega

theorem decodeCompact_encodeCompact {n : Nat} (h : Nat.log2 n < 536) (rest : List UInt8) :
    decodeCompact (encodeCompact n ++ rest) = some (n, rest) := by
  unfold encodeCompact
  split
  · next h₁ =>
    have hmode : (UInt8.ofNat (4 * n)).toNat % 4 = 0 := toNat_mod_four (m := 0) (by decide)
    have hshort := takeLe_short (k := 1) (n := n) (m := 0) rest (by decide) (by omega)
    rw [leBytes, List.cons_append, decodeCompact, hmode]
    exact hshort
  split
  · next _ h₂ =>
    have hshort := takeLe_short (k := 2) (n := n) (m := 1) rest (by decide) (by omega)
    rw [leBytes, List.cons_append, decodeCompact, toNat_mod_four (by decide)]
    exact hshort
  split
  · next _ _ h₃ =>
    have hshort := takeLe_short (k := 4) (n := n) (m := 2) rest (by decide) (by omega)
    rw [leBytes, List.cons_append, decodeCompact, toNat_mod_four (by decide)]
    exact hshort
  · next _ _ h₃ =>
    -- the first byte counts the bytes behind it, less four
    have hlo := four_le_bytesNeeded (Nat.not_lt.mp h₃)
    have hhi : bytesNeeded n ≤ 67 := by
      unfold bytesNeeded
      omega
    have hbyte : (UInt8.ofNat (4 * (bytesNeeded n - 4) + 3)).toNat
        = 4 * (bytesNeeded n - 4) + 3 := by
      rw [UInt8.toNat_ofNat']
      omega
    have hmode : (4 * (bytesNeeded n - 4) + 3) % 4 = 3 := by omega
    have hcount : (4 * (bytesNeeded n - 4) + 3) / 4 + 4 = bytesNeeded n := by omega
    rw [List.cons_append, decodeCompact, hbyte, hmode]
    show takeLe ((4 * (bytesNeeded n - 4) + 3) / 4 + 4) _ = _
    rw [hcount, takeLe_leBytes _ _ _ (lt_pow_bytesNeeded n)]

/-- Compact integers of `w` bits. -/
def compact (w : Nat) (hw : w ≤ 536) : Codec Nat where
  encode := encodeCompact
  decode := decodeCompact
  valid n := n < 2 ^ w
  decode_encode n h := by
    have hlt := of_decide_eq_true h
    refine decodeCompact_encodeCompact ?_
    rcases Nat.eq_zero_or_pos n with rfl | hpos
    · rw [Nat.log2_zero]
      decide
    · exact Nat.lt_of_lt_of_le ((Nat.log2_lt (Nat.ne_of_gt hpos)).mpr hlt) hw

/-! ## Vectors -/

/-- `Vec`: at most `u32::MAX` values behind their number. -/
def vec {α : Type} (c : Codec α) : Codec (List α) := .vec (compact 32 (by decide)) c

end Infra.Scale
