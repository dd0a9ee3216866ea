import TilePuzzle.Proofs.World.Effects

/-!
# Exact arithmetic

An operation on the numbers of two blocks is defined by functions of the integers. `Operation.Exact`
says what it should come to, a quotient by its remainder, and `Operation.word?` does it as a machine
does that has words of 32 bits, reports when a word does not hold the result, and refuses to divide
by zero. All three agree (`integer?_eq_some_iff`, `toInt_word?`): a result that a word does not hold
is no result, so nothing ever wraps around.

What a calculation makes of a world is told from there (`Calculated`). The block that takes the
result and the block that gives the operand are two blocks, also when both are on one tile, since
one is carried and the other one rests.
-/

namespace TilePuzzle

namespace Operation

variable {op : Operation} {h t n : Int}

/-- `n` is what the operation on `h` and `t` comes to. The remainder of a division has the sign of
`h`, so that the quotient is truncated toward zero. -/
def Exact : Operation → Int → Int → Int → Prop
  | add, h, t, n => n = h + t
  | subtract, h, t, n => n = h - t
  | multiply, h, t, n => n = h * t
  | divide, h, t, n => t ≠ 0 ∧ ∃ r, h = n * t + r ∧ r.natAbs < t.natAbs ∧ 0 ≤ r * h

/-- The remainder has the sign of what is divided. -/
theorem tmod_mul_self_nonneg (h t : Int) : 0 ≤ h.tmod t * h := by
  rcases Int.le_total 0 h with hpos | hneg
  · exact Int.mul_nonneg (Int.tmod_nonneg t hpos) hpos
  · rw [← Int.neg_mul_neg, ← Int.neg_tmod]
    have hpos : 0 ≤ -h := Int.neg_nonneg_of_nonpos hneg
    exact Int.mul_nonneg (Int.tmod_nonneg t hpos) hpos

/-- The quotient that is truncated toward zero is the one whose remainder has the sign of `h`. -/
theorem exact_divide_iff : divide.Exact h t n ↔ t ≠ 0 ∧ h.tdiv t = n := by
  refine and_congr_right fun ht => ⟨?_, ?_⟩
  · rintro ⟨r, heq, hlt, hsign⟩
    have hsum : r + t * n = h := by rw [heq, Int.mul_comm, Int.add_comm]
    rcases Int.lt_trichotomy h 0 with hneg | rfl | hpos
    · have hr : r ≤ 0 := Int.not_lt.mp fun hr =>
        Int.not_lt.mpr hsign (Int.mul_neg_of_pos_of_neg hr hneg)
      exact ((Int.tdiv_tmod_unique' hneg.le ht).mpr ⟨hsum, by omega, hr⟩).1
    · -- Nothing is divided, so a quotient other than zero would make the remainder too large.
      have hdvd : t ∣ r := (Int.dvd_add_left (Int.dvd_mul_right t n)).mp (hsum ▸ Int.dvd_zero t)
      have hr : r = 0 := Int.eq_zero_of_dvd_of_natAbs_lt_natAbs hdvd hlt
      exact ((Int.tdiv_tmod_unique (Int.le_refl 0) ht).mpr ⟨hsum, by omega, by omega⟩).1
    · have hr : 0 ≤ r := Int.not_lt.mp fun hr =>
        Int.not_lt.mpr hsign (Int.mul_neg_of_neg_of_pos hr hpos)
      exact ((Int.tdiv_tmod_unique hpos.le ht).mpr ⟨hsum, hr, by omega⟩).1
  · rintro rfl
    have hlt : (h.tmod t).natAbs < t.natAbs := by
      rw [Int.natAbs_tmod]
      exact Nat.mod_lt _ (Int.natAbs_pos.mpr ht)
    exact ⟨h.tmod t, (Int.tdiv_mul_add_tmod h t).symm, hlt, tmod_mul_self_nonneg h t⟩

theorem integer?_eq_some_iff : op.integer? h t = some n ↔ op.Exact h t n := by
  cases op with
  | add | subtract | multiply => exact Option.some_inj.trans eq_comm
  | divide =>
      rw [exact_divide_iff, integer?]
      split
      · next ht => simp [ht]
      · next ht => simp [ht]

theorem result?_eq_some_iff_exact :
    op.result? h t = some n ↔ op.Exact h t n ∧ Bounds.int32.Has n := by
  rw [result?_eq_some_iff, integer?_eq_some_iff]

/-! ### Machine words -/

/-- The operation on words of 32 bits, which has no result where a word would wrap around and where
the divisor is zero. -/
def word? : Operation → BitVec 32 → BitVec 32 → Option (BitVec 32)
  | add, x, y => if x.saddOverflow y then none else some (x + y)
  | subtract, x, y => if x.ssubOverflow y then none else some (x - y)
  | multiply, x, y => if x.smulOverflow y then none else some (x * y)
  | divide, x, y => if y = 0 ∨ x = .intMin 32 ∧ y = -1 then none else some (x.sdiv y)

theorem has_int32_iff :
    Bounds.int32.Has n ↔ -2147483648 ≤ n ∧ n ≤ 2147483647 := Iff.rfl

/-- What a machine reports, which knows whether a word holds the exact result `n`. -/
theorem map_toInt_eq_check {flag : Prop} [Decidable flag] {z : BitVec 32}
    (hflag : flag ↔ ¬Bounds.int32.Has n) (hexact : ¬flag → z.toInt = n) :
    (if flag then none else some z).map BitVec.toInt = Bounds.int32.check n := by
  rw [Bounds.check]
  by_cases hn : Bounds.int32.Has n
  · have hfits : ¬flag := fun h => hflag.mp h hn
    rw [if_neg hfits, if_pos hn, Option.map_some, hexact hfits]
  · rw [if_pos (hflag.mpr hn), if_neg hn, Option.map_none]

theorem has_toInt (x : BitVec 32) : Bounds.int32.Has x.toInt := by
  have hleast := x.le_toInt
  have hgreatest := BitVec.toInt_lt (x := x)
  rw [has_int32_iff]
  omega

/-- Words have the result that their integers have, if there is one that fits. -/
theorem toInt_word? (op : Operation) (x y : BitVec 32) :
    (op.word? x y).map BitVec.toInt = op.result? x.toInt y.toInt := by
  cases op with
  | add =>
      refine map_toInt_eq_check ?_ BitVec.toInt_add_of_not_saddOverflow
      rw [has_int32_iff, BitVec.saddOverflow, Bool.or_eq_true, decide_eq_true_eq,
        decide_eq_true_eq]
      omega
  | subtract =>
      refine map_toInt_eq_check ?_ BitVec.toInt_sub_of_not_ssubOverflow
      rw [has_int32_iff, BitVec.ssubOverflow, Bool.or_eq_true, decide_eq_true_eq,
        decide_eq_true_eq]
      omega
  | multiply =>
      refine map_toInt_eq_check ?_ BitVec.toInt_mul_of_not_smulOverflow
      rw [has_int32_iff, BitVec.smulOverflow, Bool.or_eq_true, decide_eq_true_eq,
        decide_eq_true_eq]
      omega
  | divide =>
      rw [word?, result?, integer?]
      by_cases hy : y = 0
      · simp [hy]
      · have hzero : y.toInt ≠ 0 := by simpa [← BitVec.toInt_inj] using hy
        have hexact : ¬(y = 0 ∨ x = .intMin 32 ∧ y = -1) →
            (x.sdiv y).toInt = x.toInt.tdiv y.toInt := fun hflag =>
          BitVec.toInt_sdiv_of_ne_or_ne x y (not_and_or.mp fun hleast => hflag (.inr hleast))
        rw [if_neg hzero, Option.bind_some]
        refine map_toInt_eq_check ⟨?_, fun hwide => ?_⟩ hexact
        · rintro (hzero' | ⟨rfl, rfl⟩)
          · exact absurd hzero' hy
          · decide
        · -- Where the machine divides, its word holds the quotient.
          by_contra hflag
          rw [← hexact hflag] at hwide
          exact hwide (has_toInt _)

example : divide.word? (-2147483648) (-1) = none ∧ divide.result? (-7) 2 = some (-3) := by decide

end Operation

namespace World

variable {w : World} {p : Position} {a : Avatar} {k : Nat} {n : Int} {op : Operation} {b : Block}

/-- The block `k` that `a` carries and the first block that rests at `p` have the exact result `n`,
which a word holds and which is not the number of `k` yet. -/
def Alters (w : World) (a : Avatar) (op : Operation) (p : Position) (k : Nat) (n : Int) : Prop :=
  ∃ b operand, a.held = some k ∧ w.block? k = some b ∧ w.RestsFirst p operand ∧
    op.Exact b.number operand.number n ∧ Bounds.int32.Has n ∧ n ≠ b.number

/-- `w'` is what becomes of `w` when `a` calculates with the block at `p`. -/
structure Calculated (w : World) (a : Avatar) (op : Operation) (p : Position) (w' : World) :
    Prop where
  changes_iff : w' ≠ w ↔ ∃ k n, w.Alters a op p k n
  /-- The number of the carried block is all that changes. -/
  change : ∀ k n, w.Alters a op p k n → w' = w.updateBlock k ({ · with number := n })
  /-- Nothing is divided by zero. -/
  zero : ∀ operand, op = .divide → w.RestsFirst p operand → operand.number = 0 → w' = w
  /-- The one quotient that no word holds is no result. -/
  least : ∀ k b operand, op = .divide → a.held = some k → w.block? k = some b →
    b.number = -2147483648 → w.RestsFirst p operand → operand.number = -1 → w' = w

theorem computes_iff : w.Computes a op p k n ↔ ∃ b operand, a.held = some k ∧
    w.block? k = some b ∧ w.RestsFirst p operand ∧ op.Exact b.number operand.number n ∧
      Bounds.int32.Has n := by
  constructor
  · rintro ⟨hk, b, operand, hb, hoperand, hresult⟩
    exact ⟨b, operand, hk, hb, hoperand, Operation.result?_eq_some_iff_exact.mp hresult⟩
  · rintro ⟨b, operand, hk, hb, hoperand, hresult⟩
    exact ⟨hk, b, operand, hb, hoperand, Operation.result?_eq_some_iff_exact.mpr hresult⟩

/-- A block that is given another number is another block. -/
theorem updateBlock_number_ne (hb : w.block? k = some b) (hne : n ≠ b.number) :
    w.updateBlock k ({ · with number := n }) ≠ w := by
  intro hsame
  have hfind : (w.updateBlock k ({ · with number := n })).block? k
      = some { b with number := n } := by
    rw [block?_updateBlock (by intro; rfl), if_pos rfl, hb]
    rfl
  rw [hsame, hb, Option.some.injEq] at hfind
  exact hne (congrArg Block.number hfind).symm

namespace Consistent

variable (h : Consistent w)

include h

theorem restsFirst_unique {b' : Block} (hb : w.RestsFirst p b) (hb' : w.RestsFirst p b') :
    b = b' := by
  rw [← h.blockOn?_eq_some_iff_restsFirst] at hb hb'
  exact Option.some.inj (hb.symm.trans hb')

/-- To give a block the number that it has changes nothing. -/
theorem updateBlock_number_self (hb : w.block? k = some b) :
    w.updateBlock k ({ · with number := b.number }) = w := by
  have hblocks : (w.updateBlock k ({ · with number := b.number })).blocks = w.blocks := by
    refine (List.map_congr_left fun c hc => ?_).trans (List.map_id _)
    split
    · next hid =>
        rw [h.eq_of_block? hb hc hid]
        rfl
    · rfl
  calc w.updateBlock k ({ · with number := b.number })
      = ⟨w.grid, w.avatars, (w.updateBlock k ({ · with number := b.number })).blocks⟩ := rfl
    _ = w := by rw [hblocks]

section Calculate

variable (ha : w.avatar? a.id = some a) {direction : Direction}

include ha

theorem arithmetic_of_alters (halters : w.Alters a op (direction.apply a.position) k n) :
    ((Command.arithmetic op direction).execute a.id w).2
      = w.updateBlock k ({ · with number := n }) := by
  obtain ⟨b, operand, hk, hb, hoperand, hexact, hfits, -⟩ := halters
  exact (Command.effect_execute h ha (.arithmetic op direction)).1 k n
    (computes_iff.mpr ⟨b, operand, hk, hb, hoperand, hexact, hfits⟩)

theorem arithmetic_of_not_alters
    (hnone : ¬∃ k n, w.Alters a op (direction.apply a.position) k n) :
    ((Command.arithmetic op direction).execute a.id w).2 = w := by
  obtain ⟨hdone, hrefused⟩ := Command.effect_execute h ha (.arithmetic op direction)
  by_cases hcomputes : ∃ k n, w.Computes a op (direction.apply a.position) k n
  · -- There is a result, but it is the number that the block has.
    obtain ⟨k, n, hcomputes⟩ := hcomputes
    obtain ⟨b, operand, hk, hb, hoperand, hexact, hfits⟩ := computes_iff.mp hcomputes
    obtain rfl : n = b.number := by
      by_contra hne
      exact hnone ⟨k, n, b, operand, hk, hb, hoperand, hexact, hfits, hne⟩
    rw [hdone k b.number hcomputes, h.updateBlock_number_self hb]
  · exact hrefused fun k n hkn => hcomputes ⟨k, n, hkn⟩

/-- A calculation is exact, or it does nothing. -/
theorem calculated (op : Operation) (direction : Direction) :
    w.Calculated a op (direction.apply a.position)
      ((Command.arithmetic op direction).execute a.id w).2 where
  changes_iff := by
    constructor
    · intro hne
      by_contra hnone
      exact hne (h.arithmetic_of_not_alters ha hnone)
    · rintro ⟨k, n, halters⟩
      rw [h.arithmetic_of_alters ha halters]
      obtain ⟨b, operand, -, hb, -, -, -, hne⟩ := halters
      exact updateBlock_number_ne hb hne
  change := fun _ _ halters => h.arithmetic_of_alters ha halters
  zero := by
    rintro operand rfl hoperand hzero
    apply h.arithmetic_of_not_alters ha
    rintro ⟨k, n, b, operand', -, -, hoperand', hexact, -⟩
    rw [h.restsFirst_unique hoperand' hoperand, hzero] at hexact
    exact hexact.1 rfl
  least := by
    rintro k b operand rfl hk hb hleast hoperand hminus
    apply h.arithmetic_of_not_alters ha
    rintro ⟨k', n, b', operand', hk', hb', hoperand', hexact, hfits, -⟩
    obtain rfl : k' = k := Option.some.inj (hk'.symm.trans hk)
    obtain rfl : b' = b := Option.some.inj (hb'.symm.trans hb)
    rw [h.restsFirst_unique hoperand' hoperand, hleast, hminus,
      Operation.exact_divide_iff] at hexact
    rw [← hexact.2] at hfits
    exact absurd hfits (by decide)

end Calculate

end Consistent

end World

end TilePuzzle
