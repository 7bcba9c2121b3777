import Canopen.Crc

set_option autoImplicit false

namespace Canopen

namespace Crc

def top (r : UInt16) : Bool := r.toBitVec.getLsbD 15

theorem top_eq_false_iff (r : UInt16) : top r = false ↔ r &&& 0x8000 = 0 := by
  rw [← UInt16.toBitVec_inj, UInt16.toBitVec_and]
  constructor
  · intro h
    apply BitVec.eq_of_getLsbD_eq
    intro i hi
    rw [BitVec.getLsbD_and]
    by_cases h15 : i = 15
    · subst h15
      exact (congrArg (· && _) h).trans (Bool.false_and _)
    · have hbit : (0x8000 : UInt16).toBitVec.getLsbD i = false := by
        have all : ∀ j < 15, (0x8000 : UInt16).toBitVec.getLsbD j = false := by decide
        exact all i (by omega)
      rw [hbit, Bool.and_false]
      exact BitVec.getLsbD_zero.symm
  · intro h
    have hbit := congrArg (·.getLsbD 15) h
    rw [BitVec.getLsbD_and] at hbit
    exact (Bool.and_true _).symm.trans hbit

theorem toBitVec_shift (r : UInt16) :
    (shift r).toBitVec = if top r then (r.toBitVec <<< 1) ^^^ 0x1021#16 else r.toBitVec <<< 1 := by
  unfold shift
  cases h : top r with
  | false => rw [if_pos ((top_eq_false_iff r).mp h)]; rfl
  | true =>
    have hne : ¬r &&& 0x8000 = 0 := by
      rw [← top_eq_false_iff, h]
      decide
    rw [if_neg hne]
    rfl

/-- The lowest bit of what is shifted tells whether the divisor was subtracted. -/
theorem getLsbD_shift_zero (r : UInt16) : (shift r).toBitVec.getLsbD 0 = top r := by
  have hlow : (r.toBitVec <<< 1).getLsbD 0 = false := by simp
  rw [toBitVec_shift]
  cases top r with
  | false => exact hlow
  | true =>
    rw [if_pos rfl, BitVec.getLsbD_xor, hlow]
    rfl

theorem shift_injective {a b : UInt16} (h : shift a = shift b) : a = b := by
  have htop : top a = top b := by rw [← getLsbD_shift_zero, h, getLsbD_shift_zero]
  have hshift : a.toBitVec <<< 1 = b.toBitVec <<< 1 := by
    have hvec := congrArg UInt16.toBitVec h
    rw [toBitVec_shift, toBitVec_shift, htop] at hvec
    split at hvec
    · exact (BitVec.xor_left_inj _).mp hvec
    · exact hvec
  apply UInt16.toBitVec_inj.mp
  apply BitVec.eq_of_getLsbD_eq
  intro i hi
  by_cases h15 : i = 15
  · subst h15
    exact htop
  · have hbit : (a.toBitVec <<< 1).getLsbD (i + 1) = (b.toBitVec <<< 1).getLsbD (i + 1) := by
      rw [hshift]
    have hlt : i + 1 < 16 := by omega
    simpa only [BitVec.getLsbD_shiftLeft, hlt, decide_true, Bool.true_and, Nat.add_sub_cancel,
      Nat.not_lt.mpr (Nat.le_add_left 1 i), decide_false, Bool.not_false] using hbit

theorem repeat_shift_injective (n : Nat) {a b : UInt16}
    (h : Nat.repeat shift n a = Nat.repeat shift n b) : a = b := by
  induction n with
  | zero => exact h
  | succ n ih => exact ih (shift_injective h)

theorem step_injective {r s : UInt16} {b : UInt8} (h : step r b = step s b) : r = s :=
  (UInt16.xor_left_inj _).mp (repeat_shift_injective 8 h)

theorem update_injective (data : List UInt8) {r s : UInt16} (h : update r data = update s data) :
    r = s := by
  induction data generalizing r s with
  | nil => exact h
  | cons b data ih => exact step_injective (ih h)

theorem step_ne {r : UInt16} {a b : UInt8} (h : a ≠ b) : step r a ≠ step r b := by
  intro hstep
  have hbytes := (UInt16.xor_right_inj r).mp (repeat_shift_injective 8 hstep)
  have hnat := congrArg UInt16.toNat hbytes
  have ha := a.toNat_lt
  have hb := b.toNat_lt
  simp only [UInt16.toNat_shiftLeft, UInt8.toNat_toUInt16, UInt16.reduceToNat, Nat.reduceMod,
    Nat.shiftLeft_eq, Nat.reducePow] at hnat
  exact h (UInt8.toNat_inj.mp (by omega))

end Crc

/-- A changed byte changes the checksum. -/
theorem crc_modify_ne {data : List UInt8} {k : Nat} (hk : k < data.length) {f : UInt8 → UInt8}
    (hf : ∀ b, f b ≠ b) : crc (data.modify k f) ≠ crc data := by
  have hsplit : data = data.take k ++ data[k] :: data.drop (k + 1) := by simp
  have hchanged : data.modify k f = data.take k ++ f data[k] :: data.drop (k + 1) :=
    List.modify_eq_take_cons_drop hk
  intro h
  rw [hchanged] at h
  conv at h => rhs; rw [hsplit]
  rw [crc, crc, Crc.update_append, Crc.update_append] at h
  exact Crc.step_ne (hf data[k]) (Crc.update_injective (data.drop (k + 1)) h)

end Canopen
