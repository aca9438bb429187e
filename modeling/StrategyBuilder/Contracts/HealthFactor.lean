import Mathlib.Algebra.BigOperators.Group.List.Basic
import Mathlib.Algebra.Order.Floor.Semifield
import Mathlib.Data.Rat.Floor
import Mathlib.Tactic.Linarith
import StrategyBuilder.Contracts.AaveActions
import StrategyBuilder.Lib.FloorDiv

/-!
# Health factors after the Aave actions

The exact health factor of a position against what the actions compute from the account's totals. The
`_ok` lemmas say what each resolver returns where nothing overflows: a floored base value, floored to
token units, under a cap.

Where all reserves have the reported threshold, the three directions of `TARGET_HF` come within one
token unit of the target and never cross it (`target_hf_tight`). A withdrawal removes collateral at the
threshold of its own reserve, while the resolver divides by the average, so it is safe exactly where the
units that go fit into the slack at that threshold (`withdraw_safe_iff`).
-/

set_option autoImplicit false

namespace StrategyBuilder.Contracts.AaveActions

open StrategyBuilder.Contracts
open StrategyBuilder.Lib
open StrategyBuilder.Lib.Abi

/-! ## Accounts -/

/-- A collateral reserve of an account: base value with 8 decimals, and liquidation threshold. -/
structure Reserve where
  asset : Address
  collateral : Nat
  threshold : Nat
deriving DecidableEq, Repr

/-- The collateral of the account, in the base currency. -/
def totalCollateral (rs : List Reserve) : Nat := (rs.map Reserve.collateral).sum

/-- The collateral of all reserves, each at its own threshold. -/
def weightedCollateral (rs : List Reserve) : Nat :=
  (rs.map fun r => r.collateral * r.threshold).sum

/-- What the pool reports of an account: totals, and the average threshold, floored. -/
def accountData (rs : List Reserve) (debt availableBorrows : Nat) : AccountData where
  collateral := totalCollateral rs
  debt := debt
  availableBorrows := availableBorrows
  liquidationThreshold := weightedCollateral rs / totalCollateral rs

/-- The exact health factor, with the weighted collateral in `bps`. -/
def healthFactor (weighted debt : ℚ) : ℚ := weighted / (BPS * debt)

/-- An 8-decimal base value in `WAD`. -/
def wad (v8 : Nat) : Nat := v8 * BASE_TO_WAD

/-- With one threshold the weighted collateral is the weighted sum. -/
theorem weightedCollateral_uniform {rs : List Reserve} {lt : Nat}
    (h : ∀ r ∈ rs, r.threshold = lt) : weightedCollateral rs = totalCollateral rs * lt := by
  induction rs with
  | nil => simp [weightedCollateral, totalCollateral]
  | cons r rs ih =>
    have hrest := ih fun s hs => h s (List.mem_cons_of_mem r hs)
    simp only [weightedCollateral, totalCollateral, List.map_cons, List.sum_cons] at hrest ⊢
    rw [hrest, h r List.mem_cons_self, Nat.add_mul]

/-! ## What the library returns -/

theorem normalizeBase_ok {v n : Nat} (h : normalizeBase v = .ok n) : n = wad v :=
  (checkedMul_eq_ok.1 h).2.symm

/-- The amount of a base value, rounded down. -/
theorem baseToToken_ok {base price dec n : Nat} (h : baseToToken base price dec = .ok n) :
    n = base * 10 ^ dec / price := by
  rw [baseToToken] at h
  by_cases hprice : price = 0
  · rw [if_pos hprice] at h
    cases h
    rw [hprice, Nat.div_zero]
  · simp only [if_neg hprice, bind_eq_ok, checkedPow_eq_ok, checkedMul_eq_ok, pure_eq_ok] at h
    obtain ⟨_, ⟨-, rfl⟩, _, ⟨-, rfl⟩, rfl⟩ := h
    rfl

/-- The debt of the target, rounded down. -/
theorem targetDebtBase_ok {c lt target n : Nat} (h : targetDebtBase c lt target = .ok n) :
    n = c * lt * WAD / (BPS * target) := by
  rw [targetDebtBase] at h
  by_cases htarget : target = 0
  · rw [if_pos htarget] at h
    cases h
    rw [htarget, Nat.mul_zero, Nat.div_zero]
  · simp only [if_neg htarget, bind_eq_ok, checkedMul_eq_ok, pure_eq_ok] at h
    obtain ⟨_, ⟨-, rfl⟩, _, ⟨-, rfl⟩, _, ⟨-, rfl⟩, rfl⟩ := h
    rfl

/-- The collateral of the target, rounded down. -/
theorem targetCollateralBase_ok {d lt target n : Nat} (h : targetCollateralBase d lt target = .ok n) :
    n = target * d * BPS / (lt * WAD) := by
  rw [targetCollateralBase] at h
  by_cases hlt : lt = 0
  · rw [if_pos hlt] at h
    cases h
    rw [hlt, Nat.zero_mul, Nat.div_zero]
  · simp only [if_neg hlt, bind_eq_ok, checkedMul_eq_ok, pure_eq_ok] at h
    obtain ⟨_, ⟨-, rfl⟩, _, ⟨-, rfl⟩, _, ⟨-, rfl⟩, rfl⟩ := h
    rfl

/-- The collateral above the one that the debt needs at the average threshold, less the haircut. -/
def freeBase (c d lt : Nat) : Nat :=
  if lt = 0 then 0 else (c - d * BPS / lt) * (BPS - haircutBps) / BPS

/-- What may be withdrawn is what is free, less the margin. -/
theorem maxSafeWithdrawBase_ok {c d lt n : Nat} (hd : 0 < d)
    (h : maxSafeWithdrawBase c d lt = .ok n) : n = freeBase c d lt := by
  rw [maxSafeWithdrawBase, if_neg (Nat.ne_of_gt hd)] at h
  rw [freeBase]
  by_cases hlt : lt = 0
  · rw [if_pos hlt] at h
    cases h
    rw [if_pos hlt]
  · simp only [if_neg hlt, bind_eq_ok, checkedMul_eq_ok] at h
    obtain ⟨_, ⟨-, rfl⟩, h⟩ := h
    rw [if_neg hlt]
    by_cases hle : c ≤ d * BPS / lt
    · rw [if_pos hle] at h
      cases h
      rw [Nat.sub_eq_zero_of_le hle, Nat.zero_mul, Nat.zero_div]
    · simp only [if_neg hle, applyHaircut, bind_eq_ok, checkedMul_eq_ok, pure_eq_ok] at h
      obtain ⟨_, ⟨-, rfl⟩, rfl⟩ := h
      rfl

/-! ## What stops a resolver -/

/-- The call reverts by an overflow only. -/
def OnlyOverflows {α : Type} (x : Result ActionError α) : Prop :=
  ∀ r, x = .error r → r = .panic 0x11

section Overflows

variable {α β : Type}

theorem onlyOverflows_ok (a : α) : OnlyOverflows (.ok a : Result ActionError α) := by
  intro r h
  cases h

theorem OnlyOverflows.bind {x : Result ActionError α} {f : α → Result ActionError β}
    (hx : OnlyOverflows x) (hf : ∀ a, OnlyOverflows (f a)) : OnlyOverflows (x >>= f) := by
  intro r h
  rcases bind_eq_error.1 h with h | ⟨a, -, h⟩
  · exact hx r h
  · exact hf a r h

theorem OnlyOverflows.ite {c : Prop} [Decidable c] {x y : Result ActionError α}
    (hx : OnlyOverflows x) (hy : OnlyOverflows y) : OnlyOverflows (if c then x else y) := by
  split_ifs
  · exact hx
  · exact hy

theorem checkedMul_onlyOverflows (a b : Nat) : OnlyOverflows (checkedMul a b) := by
  intro r h
  rw [checkedMul] at h
  split_ifs at h
  cases h
  rfl

theorem checkedPow_onlyOverflows (a b : Nat) : OnlyOverflows (checkedPow a b) := by
  intro r h
  rw [checkedPow] at h
  split_ifs at h
  cases h
  rfl

theorem targetDebtBase_onlyOverflows (c lt target : Nat) :
    OnlyOverflows (targetDebtBase c lt target) :=
  .ite (onlyOverflows_ok _) ((checkedMul_onlyOverflows _ _).bind fun _ =>
    (checkedMul_onlyOverflows _ _).bind fun _ => (checkedMul_onlyOverflows _ _).bind fun _ =>
      onlyOverflows_ok _)

theorem targetCollateralBase_onlyOverflows (d lt target : Nat) :
    OnlyOverflows (targetCollateralBase d lt target) :=
  .ite (onlyOverflows_ok _) ((checkedMul_onlyOverflows _ _).bind fun _ =>
    (checkedMul_onlyOverflows _ _).bind fun _ => (checkedMul_onlyOverflows _ _).bind fun _ =>
      onlyOverflows_ok _)

theorem normalizeBase_onlyOverflows (v : Nat) : OnlyOverflows (normalizeBase v) := by
  rw [normalizeBase]
  exact checkedMul_onlyOverflows v BASE_TO_WAD

/-- To convert a base value fails by an overflow only. -/
theorem tokens_onlyOverflows (aave : Aave) (base : Nat) (asset : Address) :
    OnlyOverflows (aave.tokens base asset) := by
  rw [Aave.tokens]
  refine (normalizeBase_onlyOverflows _).bind fun price => ?_
  rw [baseToToken]
  exact .ite (onlyOverflows_ok _) ((checkedPow_onlyOverflows _ _).bind fun _ =>
    (checkedMul_onlyOverflows _ _).bind fun _ => onlyOverflows_ok _)

theorem requireValidTargetHF_onlyOverflows {target : Nat} (h : minTargetHF < target) :
    OnlyOverflows (requireValidTargetHF target) := by
  rw [requireValidTargetHF, revertIf_of_not (Nat.not_le_of_lt h)]
  exact onlyOverflows_ok ()

variable {aave : Aave} {asset : Address} {target : Nat}

/-- A valid target is refused by an overflow only. -/
theorem targetHfBorrow_onlyOverflows (h : minTargetHF < target) :
    OnlyOverflows (aave.targetHfBorrow asset target) := by
  refine (requireValidTargetHF_onlyOverflows h).bind fun _ => ?_
  refine (normalizeBase_onlyOverflows _).bind fun _ => ?_
  refine (targetDebtBase_onlyOverflows _ _ _).bind fun _ => ?_
  refine (normalizeBase_onlyOverflows _).bind fun _ => ?_
  exact .ite (onlyOverflows_ok _) (tokens_onlyOverflows _ _ _)

/-- A valid target is refused by an overflow only. -/
theorem targetHfRepay_onlyOverflows (h : minTargetHF < target) :
    OnlyOverflows (aave.targetHfRepay asset target) := by
  refine (requireValidTargetHF_onlyOverflows h).bind fun _ => .ite (onlyOverflows_ok _) ?_
  refine (normalizeBase_onlyOverflows _).bind fun _ => ?_
  refine (targetDebtBase_onlyOverflows _ _ _).bind fun _ => ?_
  refine (normalizeBase_onlyOverflows _).bind fun _ => .ite (onlyOverflows_ok _) ?_
  exact (tokens_onlyOverflows _ _ _).bind fun _ => onlyOverflows_ok _

/-- A valid target is refused by an overflow only. -/
theorem targetHfAmount_onlyOverflows (h : minTargetHF < target) :
    OnlyOverflows (aave.targetHfAmount asset target) := by
  refine (requireValidTargetHF_onlyOverflows h).bind fun _ => .ite (onlyOverflows_ok _) ?_
  refine (normalizeBase_onlyOverflows _).bind fun _ => ?_
  refine (normalizeBase_onlyOverflows _).bind fun _ => ?_
  refine (targetCollateralBase_onlyOverflows _ _ _).bind fun _ => .ite (onlyOverflows_ok _) ?_
  exact (tokens_onlyOverflows _ _ _).bind fun _ => onlyOverflows_ok _

end Overflows

/-! ## What a resolver returns -/

section Resolvers

variable {aave : Aave} {asset : Address} {target n : Nat}

/-- The units of an asset that a base value is floored to. -/
def Aave.units (aave : Aave) (asset : Address) (base18 : Nat) : Nat :=
  base18 * 10 ^ aave.decimals asset / wad (aave.assetPrice asset)

theorem tokens_ok {base : Nat} (h : aave.tokens base asset = .ok n) : n = aave.units asset base := by
  obtain ⟨price, hprice, h⟩ := bind_eq_ok.1 h
  rw [baseToToken_ok h, normalizeBase_ok hprice]
  rfl

@[simp] theorem units_zero : aave.units asset 0 = 0 := by
  rw [Aave.units, Nat.zero_mul, Nat.zero_div]

theorem capByAToken_eq (tokens : Nat) :
    aave.capByAToken asset tokens = min tokens ((aave.aTokenBalance asset).getD 0) := by
  rw [Aave.capByAToken]
  split_ifs
  · omega
  · omega

theorem capByBalance_eq (tokens : Nat) :
    aave.capByBalance asset tokens = min tokens (aave.balanceOf asset) := by
  rw [Aave.capByBalance]
  split_ifs
  · omega
  · omega

/-- The floored debt at which the account has the target. -/
def AccountData.targetDebt (a : AccountData) (target : Nat) : Nat :=
  wad a.collateral * a.liquidationThreshold * WAD / (BPS * target)

/-- The floored collateral at which the account has the target. -/
def AccountData.targetCollateral (a : AccountData) (target : Nat) : Nat :=
  target * wad a.debt * BPS / (a.liquidationThreshold * WAD)

/-- What is borrowed is the distance to the target. -/
theorem targetHfBorrow_ok (h : aave.targetHfBorrow asset target = .ok n) :
    n = aave.units asset (aave.account.targetDebt target - wad aave.account.debt) := by
  simp only [Aave.targetHfBorrow, bind_eq_ok] at h
  obtain ⟨-, -, _, hc, _, ht, _, hd, h⟩ := h
  rw [normalizeBase_ok hc] at ht
  rw [targetDebtBase_ok ht, normalizeBase_ok hd] at h
  change (if aave.account.targetDebt target ≤ _ then _ else _) = _ at h
  by_cases hle : aave.account.targetDebt target ≤ wad aave.account.debt
  · rw [if_pos hle] at h
    cases h
    rw [Nat.sub_eq_zero_of_le hle, units_zero]
  · rw [if_neg hle] at h
    exact tokens_ok h

/-- What is repaid is the distance to the target, or the balance. -/
theorem targetHfRepay_ok (h : aave.targetHfRepay asset target = .ok n) :
    n = min (aave.units asset (wad aave.account.debt - aave.account.targetDebt target))
      (aave.balanceOf asset) := by
  obtain ⟨-, -, h⟩ := bind_eq_ok.1 h
  by_cases hdebt : aave.account.debt = 0
  · simp only [if_pos hdebt] at h
    cases h
    rw [hdebt, wad, Nat.zero_mul, Nat.zero_sub, units_zero, Nat.zero_min]
  simp only [if_neg hdebt, bind_eq_ok] at h
  obtain ⟨_, hc, _, ht, _, hd, h⟩ := h
  rw [normalizeBase_ok hc] at ht
  rw [targetDebtBase_ok ht, normalizeBase_ok hd] at h
  change (if _ ≤ aave.account.targetDebt target then _ else _) = _ at h
  by_cases hle : wad aave.account.debt ≤ aave.account.targetDebt target
  · rw [if_pos hle] at h
    cases h
    rw [Nat.sub_eq_zero_of_le hle, units_zero, Nat.zero_min]
  · simp only [if_neg hle, bind_eq_ok, pure_eq_ok] at h
    obtain ⟨tokens, htokens, rfl⟩ := h
    rw [capByBalance_eq, tokens_ok htokens]
    rfl

/-- What is supplied is the distance to the target, or the balance. -/
theorem targetHfAmount_ok (h : aave.targetHfAmount asset target = .ok n) :
    n = min (aave.units asset (aave.account.targetCollateral target - wad aave.account.collateral))
      (aave.balanceOf asset) := by
  obtain ⟨-, -, h⟩ := bind_eq_ok.1 h
  by_cases hdebt : aave.account.debt = 0
  · simp only [if_pos hdebt] at h
    cases h
    rw [AccountData.targetCollateral, hdebt, wad, Nat.zero_mul, Nat.mul_zero, Nat.zero_mul,
      Nat.zero_div, Nat.zero_sub, units_zero, Nat.zero_min]
  simp only [if_neg hdebt, bind_eq_ok] at h
  obtain ⟨_, hc, _, hd, _, ht, h⟩ := h
  rw [normalizeBase_ok hd] at ht
  rw [targetCollateralBase_ok ht, normalizeBase_ok hc] at h
  change (if aave.account.targetCollateral target ≤ _ then _ else _) = _ at h
  by_cases hle : aave.account.targetCollateral target ≤ wad aave.account.collateral
  · rw [if_pos hle] at h
    cases h
    rw [Nat.sub_eq_zero_of_le hle, units_zero, Nat.zero_min]
  · simp only [if_neg hle, bind_eq_ok, pure_eq_ok] at h
    obtain ⟨tokens, htokens, rfl⟩ := h
    rw [capByBalance_eq, tokens_ok htokens]
    rfl

/-- What is withdrawn is the distance to the target, or what is supplied. -/
theorem targetHfWithdraw_ok (hdebt : 0 < aave.account.debt)
    (h : aave.targetHfWithdraw asset target = .ok n) :
    n = min (aave.units asset (wad aave.account.collateral - aave.account.targetCollateral target))
      ((aave.aTokenBalance asset).getD 0) := by
  obtain ⟨-, -, h⟩ := bind_eq_ok.1 h
  simp only [if_neg (Nat.ne_of_gt hdebt), bind_eq_ok] at h
  obtain ⟨_, hc, _, hd, _, ht, h⟩ := h
  rw [normalizeBase_ok hd] at ht
  rw [targetCollateralBase_ok ht, normalizeBase_ok hc] at h
  change (if _ ≤ aave.account.targetCollateral target then _ else _) = _ at h
  by_cases hle : wad aave.account.collateral ≤ aave.account.targetCollateral target
  · rw [if_pos hle] at h
    cases h
    rw [Nat.sub_eq_zero_of_le hle, units_zero, Nat.zero_min]
  · simp only [if_neg hle, bind_eq_ok, pure_eq_ok] at h
    obtain ⟨tokens, htokens, rfl⟩ := h
    rw [capByAToken_eq, tokens_ok htokens]
    rfl

/-- What is withdrawn is what is free, or what is supplied. -/
theorem maxWithdraw_ok (hdebt : 0 < aave.account.debt) (h : aave.maxWithdraw asset = .ok n) :
    n = min (aave.units asset (freeBase (wad aave.account.collateral) (wad aave.account.debt)
      aave.account.liquidationThreshold)) ((aave.aTokenBalance asset).getD 0) := by
  rw [Aave.maxWithdraw] at h
  simp only [if_neg (Nat.ne_of_gt hdebt), bind_eq_ok] at h
  obtain ⟨_, hc, _, hd, free, hfree, h⟩ := h
  have hdebt18 : 0 < wad aave.account.debt := Nat.mul_pos hdebt (by decide)
  rw [normalizeBase_ok hc, normalizeBase_ok hd] at hfree
  rw [← maxSafeWithdrawBase_ok hdebt18 hfree]
  by_cases hzero : free = 0
  · rw [if_pos hzero] at h
    cases h
    rw [hzero, units_zero, Nat.zero_min]
  · simp only [if_neg hzero, bind_eq_ok, pure_eq_ok] at h
    obtain ⟨tokens, htokens, rfl⟩ := h
    rw [capByAToken_eq, tokens_ok htokens]

end Resolvers

/-! ## Token units -/

/-- The base value of one unit of the asset. -/
def Aave.unitValue (aave : Aave) (asset : Address) : ℚ :=
  wad (aave.assetPrice asset) / (10 ^ aave.decimals asset : Nat)

/-- A balance that has the units to which a base value is floored. -/
def Covers (balance : Nat) (u v : ℚ) : Prop := v < (balance + 1) * u

section Units

variable {aave : Aave} {asset : Address}

theorem scale_pos (aave : Aave) (asset : Address) : 0 < 10 ^ aave.decimals asset :=
  Nat.pow_pos (by decide)

theorem unitValue_nonneg (aave : Aave) (asset : Address) : 0 ≤ aave.unitValue asset :=
  div_nonneg (Nat.cast_nonneg _) (Nat.cast_nonneg _)

theorem units_le (aave : Aave) (asset : Address) (base : Nat) :
    (aave.units asset base : ℚ) * aave.unitValue asset ≤ base :=
  units_mul_le base (scale_pos aave asset)

theorem lt_units_succ (hprice : 0 < aave.assetPrice asset) (base : Nat) :
    (base : ℚ) < (aave.units asset base + 1) * aave.unitValue asset :=
  lt_units_succ_mul base (scale_pos aave asset) (Nat.mul_pos hprice (by decide))

/-- A balance that covers a value does not cap it. -/
theorem units_le_of_covers {base balance : Nat}
    (h : Covers balance (aave.unitValue asset) base) : aave.units asset base ≤ balance := by
  have hlt : (aave.units asset base : ℚ) * aave.unitValue asset <
      (balance + 1) * aave.unitValue asset := lt_of_le_of_lt (units_le aave asset base) h
  have hlt' : (aave.units asset base : ℚ) < ((balance + 1 : Nat) : ℚ) := by
    push_cast
    exact lt_of_mul_lt_mul_right hlt (unitValue_nonneg aave asset)
  exact Nat.lt_succ_iff.1 (Nat.cast_lt.1 hlt')

end Units

/-! ## The inverse of the target -/

/-- The debt at which the account has the target. -/
def AccountData.exactTargetDebt (a : AccountData) (target : Nat) : ℚ :=
  wad a.collateral * a.liquidationThreshold * WAD / (BPS * target)

/-- The collateral at which the account has the target. -/
def AccountData.exactTargetCollateral (a : AccountData) (target : Nat) : ℚ :=
  target * wad a.debt * BPS / (a.liquidationThreshold * WAD)

section Targets

variable (a : AccountData) (target : Nat)

theorem floor_exactTargetDebt : ⌊a.exactTargetDebt target⌋₊ = a.targetDebt target := by
  rw [AccountData.exactTargetDebt, AccountData.targetDebt, ← Nat.floor_div_eq_div (K := ℚ)]
  push_cast
  rfl

theorem floor_exactTargetCollateral :
    ⌊a.exactTargetCollateral target⌋₊ = a.targetCollateral target := by
  rw [AccountData.exactTargetCollateral, AccountData.targetCollateral,
    ← Nat.floor_div_eq_div (K := ℚ)]
  push_cast
  rfl

theorem exactTargetDebt_nonneg : 0 ≤ a.exactTargetDebt target := by
  rw [AccountData.exactTargetDebt]
  positivity

end Targets

/-- With one threshold for all reserves, a debt up to the target's keeps the health factor at the
target. -/
theorem healthFactor_of_le {rs : List Reserve} {debt availableBorrows target : Nat} {d : ℚ}
    (htarget : 0 < target)
    (huniform : ∀ r ∈ rs, r.threshold = (accountData rs debt availableBorrows).liquidationThreshold)
    (hd : 0 < d) (h : d ≤ (accountData rs debt availableBorrows).exactTargetDebt target) :
    (target : ℚ) / WAD ≤ healthFactor (wad (weightedCollateral rs)) d := by
  have htarget' : (0 : ℚ) < target := Nat.cast_pos.2 htarget
  have hWAD : (0 : ℚ) < (WAD : Nat) := Nat.cast_pos.2 (by decide)
  have hBPS : (0 : ℚ) < (BPS : Nat) := Nat.cast_pos.2 (by decide)
  have hweighted : (wad (weightedCollateral rs) : ℚ) =
      wad (accountData rs debt availableBorrows).collateral *
        (accountData rs debt availableBorrows).liquidationThreshold := by
    rw [weightedCollateral_uniform huniform, wad, wad]
    push_cast
    exact mul_right_comm _ _ _
  rw [AccountData.exactTargetDebt, le_div_iff₀ (mul_pos hBPS htarget')] at h
  rw [healthFactor, hweighted, div_le_div_iff₀ hWAD (mul_pos hBPS hd)]
  calc (target : ℚ) * (BPS * d) = d * (BPS * target) := by ring
    _ ≤ _ := h

section Tight

variable {aave : Aave} {asset : Address} {target n : Nat}

/-- A borrowing stays at the target, and one unit more would not. -/
theorem borrow_tight (hprice : 0 < aave.assetPrice asset)
    (h : aave.targetHfBorrow asset target = .ok n)
    (hlt : wad aave.account.debt < ⌊aave.account.exactTargetDebt target⌋₊) :
    (wad aave.account.debt : ℚ) + n * aave.unitValue asset ≤ aave.account.exactTargetDebt target ∧
      aave.account.exactTargetDebt target <
        wad aave.account.debt + n * aave.unitValue asset + aave.unitValue asset + 1 := by
  have hfloor := Nat.floor_le (exactTargetDebt_nonneg aave.account target)
  have hceil := Nat.lt_floor_add_one (aave.account.exactTargetDebt target)
  rw [floor_exactTargetDebt] at hlt hfloor hceil
  rw [targetHfBorrow_ok h]
  have hle := units_le aave asset (aave.account.targetDebt target - wad aave.account.debt)
  have hgt := lt_units_succ hprice (aave.account.targetDebt target - wad aave.account.debt)
  rw [Nat.cast_sub (Nat.le_of_lt hlt)] at hle hgt
  rw [add_mul, one_mul] at hgt
  constructor
  · linarith
  · linarith

/-- A repayment ends within a unit of the target. -/
theorem repay_tight (hprice : 0 < aave.assetPrice asset)
    (h : aave.targetHfRepay asset target = .ok n) {assetDebt : Nat}
    (hlt : ⌊aave.account.exactTargetDebt target⌋₊ < wad aave.account.debt)
    (hbalance : Covers (aave.balanceOf asset) (aave.unitValue asset)
      (wad aave.account.debt - ⌊aave.account.exactTargetDebt target⌋₊))
    (hdebt : Covers assetDebt (aave.unitValue asset)
      (wad aave.account.debt - ⌊aave.account.exactTargetDebt target⌋₊)) :
    (⌊aave.account.exactTargetDebt target⌋₊ : ℚ) ≤
        wad aave.account.debt - (min n assetDebt : Nat) * aave.unitValue asset ∧
      wad aave.account.debt - (min n assetDebt : Nat) * aave.unitValue asset <
        ⌊aave.account.exactTargetDebt target⌋₊ + aave.unitValue asset := by
  rw [floor_exactTargetDebt] at hlt hbalance hdebt ⊢
  rw [← Nat.cast_sub (Nat.le_of_lt hlt)] at hbalance hdebt
  have hn : n = aave.units asset (wad aave.account.debt - aave.account.targetDebt target) := by
    rw [targetHfRepay_ok h, Nat.min_eq_left (units_le_of_covers hbalance)]
  rw [hn, Nat.min_eq_left (units_le_of_covers hdebt)]
  have hle := units_le aave asset (wad aave.account.debt - aave.account.targetDebt target)
  have hgt := lt_units_succ hprice (wad aave.account.debt - aave.account.targetDebt target)
  rw [Nat.cast_sub (Nat.le_of_lt hlt)] at hle hgt
  rw [add_mul, one_mul] at hgt
  constructor
  · linarith
  · linarith

/-- A supply ends within a unit of the target. -/
theorem supply_tight (hprice : 0 < aave.assetPrice asset)
    (h : aave.targetHfAmount asset target = .ok n)
    (hlt : wad aave.account.collateral < ⌊aave.account.exactTargetCollateral target⌋₊)
    (hbalance : Covers (aave.balanceOf asset) (aave.unitValue asset)
      (⌊aave.account.exactTargetCollateral target⌋₊ - wad aave.account.collateral)) :
    (⌊aave.account.exactTargetCollateral target⌋₊ : ℚ) - aave.unitValue asset <
        wad aave.account.collateral + n * aave.unitValue asset ∧
      (wad aave.account.collateral : ℚ) + n * aave.unitValue asset ≤
        ⌊aave.account.exactTargetCollateral target⌋₊ := by
  rw [floor_exactTargetCollateral] at hlt hbalance ⊢
  rw [← Nat.cast_sub (Nat.le_of_lt hlt)] at hbalance
  have hn : n = aave.units asset
      (aave.account.targetCollateral target - wad aave.account.collateral) := by
    rw [targetHfAmount_ok h, Nat.min_eq_left (units_le_of_covers hbalance)]
  rw [hn]
  have hle := units_le aave asset
    (aave.account.targetCollateral target - wad aave.account.collateral)
  have hgt := lt_units_succ hprice
    (aave.account.targetCollateral target - wad aave.account.collateral)
  rw [Nat.cast_sub (Nat.le_of_lt hlt)] at hle hgt
  rw [add_mul, one_mul] at hgt
  constructor
  · linarith
  · linarith

end Tight

/-- **`TARGET_HF` is tight and one-sided.** For an account whose reserves all have the reported
threshold: a borrow leaves the debt below the target's by less than one token unit and one, a repayment
above its floor by less than one unit, a supply the collateral below its floor by less than one unit.
In the wrong direction nothing moves, and only an overflow stops a resolver. -/
theorem target_hf_tight {aave : Aave} {rs : List Reserve} {debt availableBorrows : Nat}
    (haccount : aave.account = accountData rs debt availableBorrows)
    (huniform : ∀ r ∈ rs, r.threshold = aave.account.liquidationThreshold)
    {pool : PoolCall → Option Nat} {p : Params} {ctx : List Bytes}
    {out : List PoolCall × List Nat × List Bytes} (hmode : p.mode = 3)
    (htarget : minTargetHF < p.targetHealthFactor) (hprice : 0 < aave.assetPrice p.asset) :
    let target := p.targetHealthFactor
    let n := moved out.1
    let C : ℚ := wad aave.account.collateral
    let D : ℚ := wad aave.account.debt
    let T := aave.account.exactTargetDebt target
    let K := aave.account.exactTargetCollateral target
    let u := aave.unitValue p.asset
    (borrow aave pool p ctx = .ok out → ((⌊T⌋₊ : ℚ) ≤ D → n = 0) ∧
      (D < ⌊T⌋₊ → D + n * u ≤ T ∧ T < D + n * u + u + 1 ∧
        (0 < D + n * u →
          (target : ℚ) / WAD ≤ healthFactor (wad (weightedCollateral rs)) (D + n * u)))) ∧
    (repay aave pool p ctx = .ok out → (D ≤ ⌊T⌋₊ → n = 0) ∧
      ∀ assetDebt, (⌊T⌋₊ : ℚ) < D → Covers (aave.balanceOf p.asset) u (D - ⌊T⌋₊) →
        Covers assetDebt u (D - ⌊T⌋₊) →
        ⌊T⌋₊ ≤ D - (min n assetDebt : Nat) * u ∧ D - (min n assetDebt : Nat) * u < ⌊T⌋₊ + u) ∧
    (supply aave pool p ctx = .ok out → ((⌊K⌋₊ : ℚ) ≤ C → n = 0) ∧
      (C < ⌊K⌋₊ → Covers (aave.balanceOf p.asset) u (⌊K⌋₊ - C) →
        ⌊K⌋₊ - u < C + n * u ∧ C + n * u ≤ ⌊K⌋₊)) ∧
    OnlyOverflows (aave.targetHfBorrow p.asset target) ∧
    OnlyOverflows (aave.targetHfRepay p.asset target) ∧
    OnlyOverflows (aave.targetHfAmount p.asset target) := by
  intro target n C D T K u
  refine ⟨fun hrun => ?_, fun hrun => ?_, fun hrun => ?_, targetHfBorrow_onlyOverflows htarget,
    targetHfRepay_onlyOverflows htarget, targetHfAmount_onlyOverflows htarget⟩
  -- the targets are compared as integers: only their floors are in the code
  · have h := borrow_target hmode hrun
    refine ⟨fun hle => ?_, fun hgt => ?_⟩
    · have hle' : ⌊T⌋₊ ≤ wad aave.account.debt := Nat.cast_le.1 hle
      rw [floor_exactTargetDebt] at hle'
      exact (targetHfBorrow_ok h).trans (by rw [Nat.sub_eq_zero_of_le hle', units_zero])
    · obtain ⟨hbelow, habove⟩ := borrow_tight hprice h (Nat.cast_lt.1 hgt)
      refine ⟨hbelow, habove, fun hpos => ?_⟩
      rw [haccount] at huniform
      refine healthFactor_of_le (Nat.lt_of_le_of_lt (Nat.zero_le _) htarget) huniform hpos ?_
      rw [← haccount]
      exact hbelow
  · have h := repay_target hmode hrun
    refine ⟨fun hle => ?_, fun assetDebt hgt hbalance hdebt => ?_⟩
    · have hle' : wad aave.account.debt ≤ ⌊T⌋₊ := Nat.cast_le.1 hle
      rw [floor_exactTargetDebt] at hle'
      exact (targetHfRepay_ok h).trans (by
        rw [Nat.sub_eq_zero_of_le hle', units_zero, Nat.zero_min])
    · exact repay_tight hprice h (Nat.cast_lt.1 hgt) hbalance hdebt
  · have h := supply_target hmode hrun
    refine ⟨fun hle => ?_, fun hgt hbalance => ?_⟩
    · have hle' : ⌊K⌋₊ ≤ wad aave.account.collateral := Nat.cast_le.1 hle
      rw [floor_exactTargetCollateral] at hle'
      exact (targetHfAmount_ok h).trans (by
        rw [Nat.sub_eq_zero_of_le hle', units_zero, Nat.zero_min])
    · exact supply_tight hprice h (Nat.cast_lt.1 hgt) hbalance

/-- 1000 of collateral at a threshold of 80 % against a debt of 500, in a token with six decimals. -/
def stableAave : Aave where
  account := accountData [⟨⟨1⟩, 1000 * 10 ^ 8, 8000⟩] (500 * 10 ^ 8) 0
  assetPrice := fun _ => 10 ^ 8
  decimals := fun _ => 6
  balanceOf := fun _ => 1000 * 10 ^ 6
  aTokenBalance := fun _ => some (1000 * 10 ^ 6)
  variableDebtBalance := fun _ => some (500 * 10 ^ 6)

/-- The parameters of a step with `TARGET_HF`. -/
def targetParams (asset : Address) (target : Nat) : Params where
  asset := asset
  mode := 3
  amount := 0
  amountFromSlot := noSlot
  targetHealthFactor := target
  amountToSlot := noSlot

/-- A pool that does what it is asked. -/
def fullPool (call : PoolCall) : Option Nat := some call.amount

theorem target_hf_tight_sample :
    let u := stableAave.unitValue ⟨1⟩
    let D : ℚ := wad stableAave.account.debt
    let T (target : Nat) := stableAave.account.exactTargetDebt target
    borrow stableAave fullPool (targetParams ⟨1⟩ (12 * 10 ^ 17)) [] =
        .ok ([.borrow ⟨1⟩ 166666666], [], []) ∧
      D + 166666666 * u ≤ T (12 * 10 ^ 17) ∧
      repay stableAave fullPool (targetParams ⟨1⟩ (2 * 10 ^ 18)) [] =
        .ok ([.repay ⟨1⟩ 100000000], [], []) ∧
      ⌊T (2 * 10 ^ 18)⌋₊ ≤ D - 100000000 * u := by
  intro u D T
  have hborrow : borrow stableAave fullPool (targetParams ⟨1⟩ (12 * 10 ^ 17)) [] =
      .ok ([.borrow ⟨1⟩ 166666666], [], []) := by decide +kernel
  have hrepay : repay stableAave fullPool (targetParams ⟨1⟩ (2 * 10 ^ 18)) [] =
      .ok ([.repay ⟨1⟩ 100000000], [], []) := by decide +kernel
  have huniform : ∀ r ∈ [(⟨⟨1⟩, 1000 * 10 ^ 8, 8000⟩ : Reserve)],
      r.threshold = stableAave.account.liquidationThreshold := by decide +kernel
  have hprice : 0 < stableAave.assetPrice ⟨1⟩ := by decide +kernel
  obtain ⟨hlow, -⟩ := ((target_hf_tight (rfl : stableAave.account = _) huniform rfl (by decide)
    hprice).1 hborrow).2 (by
      rw [floor_exactTargetDebt]
      decide +kernel)
  have hcovers : Covers (500 * 10 ^ 6) u (D - ⌊T (2 * 10 ^ 18)⌋₊) := by
    rw [floor_exactTargetDebt, Covers]
    decide +kernel
  have hcovers' : Covers (1000 * 10 ^ 6) u (D - ⌊T (2 * 10 ^ 18)⌋₊) := by
    rw [floor_exactTargetDebt, Covers]
    decide +kernel
  obtain ⟨hdebt, -⟩ := ((target_hf_tight (rfl : stableAave.account = _) huniform rfl (by decide)
    hprice).2.1 hrepay).2 (500 * 10 ^ 6) (by
      rw [floor_exactTargetDebt]
      decide +kernel) hcovers' hcovers
  refine ⟨hborrow, ?_, hrepay, ?_⟩
  · exact_mod_cast hlow
  · exact_mod_cast hdebt

/-! ## Withdrawals -/

/-- The health factor after `x` base value of a reserve has gone, at the reserve's own threshold. -/
def healthAfter (rs : List Reserve) (debt threshold : Nat) (x : ℚ) : ℚ :=
  healthFactor (wad (weightedCollateral rs) - x * threshold) (wad debt)

/-- At this threshold, `x` base value fits between the weighted collateral and what the debt needs at
the health factor `h`. -/
def Fits (rs : List Reserve) (debt threshold : Nat) (h x : ℚ) : Prop :=
  h * (BPS * wad debt) + x * threshold ≤ wad (weightedCollateral rs)

/-- The units worth `u` whose loss at this threshold leaves the health factor at `h`, if `wei` base
value may be missing. -/
def safeUnits (rs : List Reserve) (debt threshold : Nat) (h u wei : ℚ) : Nat :=
  ⌊(wad (weightedCollateral rs) - h * (BPS * wad debt) + wei * threshold) / (threshold * u)⌋₊

/-- An excess in base value is less than `m + 1` units, or the aTokens are no more than `m`. -/
def Aave.Within (aave : Aave) (asset : Address) (excess m : Nat) : Prop :=
  (aave.aTokenBalance asset).getD 0 ≤ m ∨ (excess : ℚ) < (m + 1) * aave.unitValue asset

/-- The withdrawal is within a bound if the smaller of both amounts is. -/
theorem within_iff {aave : Aave} {asset : Address} (hprice : 0 < aave.unitValue asset)
    (excess m : Nat) : aave.Within asset excess m ↔
      min (aave.units asset excess) ((aave.aTokenBalance asset).getD 0) ≤ m := by
  have hunits : (excess : ℚ) < (m + 1) * aave.unitValue asset ↔ aave.units asset excess ≤ m := by
    constructor
    · exact units_le_of_covers
    · intro hle
      have hprice' : 0 < aave.assetPrice asset := by
        rcases Nat.eq_zero_or_pos (aave.assetPrice asset) with hzero | hpos
        · rw [Aave.unitValue, hzero, wad, Nat.zero_mul, Nat.cast_zero, zero_div] at hprice
          exact absurd hprice (lt_irrefl 0)
        · exact hpos
      have hle' : (aave.units asset excess : ℚ) ≤ m := Nat.cast_le.2 hle
      calc (excess : ℚ) < (aave.units asset excess + 1) * aave.unitValue asset :=
            lt_units_succ hprice' excess
        _ ≤ (m + 1) * aave.unitValue asset := by
            exact mul_le_mul_of_nonneg_right (by linarith) (le_of_lt hprice)
  rw [Aave.Within, hunits]
  omega

section Withdraw

variable {rs : List Reserve} {debt threshold : Nat} {h x y : ℚ}

theorem le_healthAfter_iff (hdebt : 0 < debt) :
    h ≤ healthAfter rs debt threshold x ↔ Fits rs debt threshold h x := by
  have hpos : (0 : ℚ) < BPS * wad debt :=
    mul_pos (Nat.cast_pos.2 (by decide)) (Nat.cast_pos.2 (Nat.mul_pos hdebt (by decide)))
  rw [healthAfter, healthFactor, le_div_iff₀ hpos, Fits, le_sub_iff_add_le]

theorem Fits.mono (hy : Fits rs debt threshold h y) (hxy : x ≤ y) : Fits rs debt threshold h x := by
  have hle : x * threshold ≤ y * threshold := mul_le_mul_of_nonneg_right hxy (Nat.cast_nonneg _)
  rw [Fits] at hy ⊢
  linarith

/-- The units that fit with `wei` base value to spare are the safe ones. -/
theorem fits_units_iff {u wei : ℚ} (hu : 0 ≤ u) (hwei : 0 ≤ wei) (hstart : Fits rs debt threshold h 0)
    (n : Nat) : Fits rs debt threshold h (n * u - wei) ↔
      threshold * u = 0 ∨ n ≤ safeUnits rs debt threshold h u wei := by
  have hthreshold : (0 : ℚ) ≤ threshold := Nat.cast_nonneg _
  have hspare : 0 ≤ wei * threshold := mul_nonneg hwei hthreshold
  have hvalue : (n * u - wei) * threshold = n * (threshold * u) - wei * threshold := by ring
  rw [Fits, zero_mul, add_zero] at hstart
  rw [Fits, hvalue]
  rcases (mul_nonneg hthreshold hu).eq_or_lt with hzero | hpos
  · rw [← hzero, mul_zero]
    exact iff_of_true (by linarith) (Or.inl rfl)
  · have hroom : 0 ≤ (wad (weightedCollateral rs) - h * (BPS * wad debt) + wei * threshold) /
        (threshold * u) := div_nonneg (by linarith) (le_of_lt hpos)
    rw [or_iff_right (ne_of_gt hpos), safeUnits, Nat.le_floor_iff hroom, le_div_iff₀ hpos]
    constructor
    · intro hle
      linarith
    · intro hle
      linarith

/-- The reported threshold does not overstate the weighted collateral. -/
theorem average_le (rs : List Reserve) (debt availableBorrows : Nat) :
    (wad (accountData rs debt availableBorrows).collateral : ℚ) *
      (accountData rs debt availableBorrows).liquidationThreshold ≤ wad (weightedCollateral rs) := by
  have h := floorDiv_mul_le (K := ℚ) (weightedCollateral rs) (totalCollateral rs)
  have hscale : (0 : ℚ) ≤ (BASE_TO_WAD : Nat) := Nat.cast_nonneg _
  have hscaled := mul_le_mul_of_nonneg_right h hscale
  simp only [wad, accountData]
  push_cast
  calc (totalCollateral rs : ℚ) * BASE_TO_WAD * (weightedCollateral rs / totalCollateral rs : Nat)
      = (weightedCollateral rs / totalCollateral rs : Nat) * totalCollateral rs * BASE_TO_WAD := by
        ring
    _ ≤ weightedCollateral rs * BASE_TO_WAD := hscaled

/-- The haircut takes back what the floor of the needed collateral gave too much. -/
theorem freeBase_le (c d lt : Nat) :
    (freeBase c d lt : ℚ) * lt + BPS * d ≤ c * lt ∨ freeBase c d lt = 0 := by
  rw [freeBase]
  by_cases hlt : lt = 0
  · exact Or.inr (if_pos hlt)
  rw [if_neg hlt]
  rcases Nat.lt_or_ge (d * BPS / lt) c with hgt | hle
  · left
    generalize hneed : d * BPS / lt = need at hgt
    have hpos : 0 < lt := Nat.pos_of_ne_zero hlt
    -- half a percent of a positive excess is more than nothing, so the floor is below it
    have hless : (c - need) * (BPS - haircutBps) / BPS + 1 ≤ c - need := by
      have hexcess : 0 < c - need := by omega
      refine Nat.succ_le_of_lt ((Nat.div_lt_iff_lt_mul (by decide)).2 ?_)
      exact Nat.mul_lt_mul_of_pos_left (by decide) hexcess
    have hceil : d * BPS < (need + 1) * lt := by
      have := Nat.lt_mul_div_succ (d * BPS) hpos
      rwa [hneed, Nat.mul_comm lt] at this
    have hsum : (c - need) * (BPS - haircutBps) / BPS + (need + 1) ≤ c := by omega
    have hnat : (c - need) * (BPS - haircutBps) / BPS * lt + BPS * d ≤ c * lt := by
      calc (c - need) * (BPS - haircutBps) / BPS * lt + BPS * d
          ≤ (c - need) * (BPS - haircutBps) / BPS * lt + (need + 1) * lt := by
            rw [Nat.mul_comm BPS d]
            omega
        _ = ((c - need) * (BPS - haircutBps) / BPS + (need + 1)) * lt := (Nat.add_mul _ _ _).symm
        _ ≤ c * lt := Nat.mul_le_mul_right lt hsum
    exact_mod_cast hnat
  · right
    rw [Nat.sub_eq_zero_of_le hle, Nat.zero_mul, Nat.zero_div]

/-- At no more than the average threshold, what `MAX_AVAILABLE` sets free fits. -/
theorem freeBase_fits (availableBorrows : Nat) (hstart : Fits rs debt threshold 1 0)
    (hle : threshold ≤ (accountData rs debt availableBorrows).liquidationThreshold)
    (hx : x ≤ freeBase (wad (totalCollateral rs)) (wad debt)
      (accountData rs debt availableBorrows).liquidationThreshold) :
    Fits rs debt threshold 1 x := by
  have haverage := average_le rs debt availableBorrows
  rcases freeBase_le (wad (totalCollateral rs)) (wad debt)
      (accountData rs debt availableBorrows).liquidationThreshold with hfree | hzero
  · have hlost : x * threshold ≤
        freeBase (wad (totalCollateral rs)) (wad debt)
          (accountData rs debt availableBorrows).liquidationThreshold *
          (accountData rs debt availableBorrows).liquidationThreshold :=
      mul_le_mul hx (Nat.cast_le.2 hle) (Nat.cast_nonneg _) (Nat.cast_nonneg _)
    have hcollateral : (wad (accountData rs debt availableBorrows).collateral : ℚ) =
        wad (totalCollateral rs) := rfl
    rw [hcollateral] at haverage
    rw [Fits, one_mul]
    linarith
  · rw [hzero, Nat.cast_zero] at hx
    exact hstart.mono hx

/-- At no more than the average threshold, what `TARGET_HF` takes fits but for one wei. -/
theorem targetCollateral_fits (availableBorrows : Nat) {target : Nat}
    (hstart : Fits rs debt threshold (target / WAD) 0)
    (hle : threshold ≤ (accountData rs debt availableBorrows).liquidationThreshold)
    (hx : x ≤ (wad (totalCollateral rs) -
      (accountData rs debt availableBorrows).targetCollateral target : Nat)) :
    Fits rs debt threshold (target / WAD) (x - 1) := by
  have haverage := average_le rs debt availableBorrows
  have hthreshold : (threshold : ℚ) ≤
      (accountData rs debt availableBorrows).liquidationThreshold := Nat.cast_le.2 hle
  have hfloor := floor_exactTargetCollateral (accountData rs debt availableBorrows) target
  have hceil := Nat.lt_floor_add_one
    ((accountData rs debt availableBorrows).exactTargetCollateral target)
  rw [hfloor] at hceil
  have hexact : (accountData rs debt availableBorrows).exactTargetCollateral target =
      target * wad debt * BPS /
        ((accountData rs debt availableBorrows).liquidationThreshold * WAD) := rfl
  have hcollateral : (wad (accountData rs debt availableBorrows).collateral : ℚ) =
      wad (totalCollateral rs) := rfl
  rw [hcollateral] at haverage
  generalize (accountData rs debt availableBorrows).liquidationThreshold = lt at *
  generalize (accountData rs debt availableBorrows).targetCollateral target = floorK at *
  generalize (accountData rs debt availableBorrows).exactTargetCollateral target = K at *
  rcases Nat.lt_or_ge floorK (wad (totalCollateral rs)) with hlt | hge
  · rcases Nat.eq_zero_or_pos lt with hzero | hpos
    · -- without a threshold nothing is lost
      have hthreshold' : (threshold : ℚ) = 0 := by
        rw [hzero] at hthreshold
        exact le_antisymm (by exact_mod_cast hthreshold) (Nat.cast_nonneg _)
      rw [Fits, hthreshold', mul_zero] at hstart ⊢
      exact hstart
    · have hlt' : (0 : ℚ) < lt := Nat.cast_pos.2 hpos
      have hWAD : (WAD : ℚ) ≠ 0 := Nat.cast_ne_zero.2 (by decide)
      have hneeds : (target : ℚ) / WAD * (BPS * wad debt) = K * lt := by
        rw [hexact]
        field_simp
      rw [Nat.cast_sub (Nat.le_of_lt hlt)] at hx
      have hroom : (floorK : ℚ) + 1 ≤ wad (totalCollateral rs) := by
        exact_mod_cast Nat.succ_le_of_lt hlt
      have hbound : x - 1 ≤ wad (totalCollateral rs) - K := by linarith
      have hnonneg : (0 : ℚ) ≤ wad (totalCollateral rs) - K := by linarith
      have hlost : (x - 1) * threshold ≤ (wad (totalCollateral rs) - K) * lt :=
        mul_le_mul hbound hthreshold (Nat.cast_nonneg _) hnonneg
      rw [Fits, hneeds]
      rw [sub_mul (wad (totalCollateral rs) : ℚ)] at hlost
      linarith
  · rw [Nat.sub_eq_zero_of_le hge, Nat.cast_zero] at hx
    exact hstart.mono (by linarith)

end Withdraw

/-- **When a withdrawal keeps the position safe.** After `MAX_AVAILABLE` the health factor is at least 1
if and only if it was before and the excess that the resolver sees at the average threshold is within
the units that are safe at the threshold of the withdrawn reserve; after `TARGET_HF` it is at the target,
up to one wei, under the same condition. A threshold up to the average is always safe. -/
theorem withdraw_safe_iff {aave : Aave} {rs : List Reserve} {debt availableBorrows : Nat}
    (haccount : aave.account = accountData rs debt availableBorrows) (hdebt : 0 < debt)
    {pool : PoolCall → Option Nat} {p : Params} {ctx : List Bytes}
    {out : List PoolCall × List Nat × List Bytes} (hrun : withdraw aave pool p ctx = .ok out)
    {r : Reserve} (hr : r.asset = p.asset) :
    let n := moved out.1
    let target := p.targetHealthFactor
    let u := aave.unitValue r.asset
    let lt := aave.account.liquidationThreshold
    let before := healthFactor (wad (weightedCollateral rs)) (wad debt)
    let free := freeBase (wad (totalCollateral rs)) (wad debt) lt
    let excess := wad (totalCollateral rs) - target * wad debt * BPS / (lt * WAD)
    let h : ℚ := target / WAD
    (p.mode = 2 →
      (1 ≤ healthAfter rs debt r.threshold (n * u) ↔ 1 ≤ before ∧
        (r.threshold * u = 0 ∨ aave.Within r.asset free (safeUnits rs debt r.threshold 1 u 0))) ∧
      (r.threshold ≤ lt → 1 ≤ before → 1 ≤ healthAfter rs debt r.threshold (n * u))) ∧
    (p.mode = 3 → h < before →
      (h ≤ healthAfter rs debt r.threshold (n * u - 1) ↔
        r.threshold * u = 0 ∨ aave.Within r.asset excess (safeUnits rs debt r.threshold h u 1)) ∧
      (r.threshold ≤ lt → h ≤ healthAfter rs debt r.threshold (n * u - 1))) := by
  intro n target u lt before free excess h
  have hu : 0 ≤ u := unitValue_nonneg aave r.asset
  have hdebt' : 0 < aave.account.debt := by
    rw [haccount]
    exact hdebt
  have hD : aave.account.debt = debt := by rw [haccount]; rfl
  have hC : aave.account.collateral = totalCollateral rs := by rw [haccount]; rfl
  have hlt : lt = (accountData rs debt availableBorrows).liquidationThreshold := by
    rw [← haccount]
  have hbefore : before = healthAfter rs debt r.threshold 0 := by
    rw [healthAfter, zero_mul, sub_zero]
  -- where a unit has weight, the units within the safe ones are those that are returned
  have hwithin (e m : Nat) :
      (r.threshold * u = 0 ∨ min (aave.units r.asset e) ((aave.aTokenBalance r.asset).getD 0) ≤ m) ↔
        (r.threshold * u = 0 ∨ aave.Within r.asset e m) := by
    by_cases hzero : r.threshold * u = 0
    · rw [hzero]
      exact iff_of_true (Or.inl rfl) (Or.inl rfl)
    · have hpos : 0 < u := lt_of_le_of_ne hu fun h0 => hzero (by rw [← h0, mul_zero])
      rw [within_iff hpos]
  constructor
  · intro hmode
    have hmax : aave.maxWithdraw r.asset = .ok n := by
      rw [hr]
      exact withdraw_max hmode hrun
    have hn : n = min (aave.units r.asset free) ((aave.aTokenBalance r.asset).getD 0) := by
      have := maxWithdraw_ok hdebt' hmax
      rwa [hC, hD] at this
    rw [hbefore, le_healthAfter_iff hdebt, le_healthAfter_iff hdebt]
    refine ⟨?_, fun hle hstart => ?_⟩
    · constructor
      · intro hsafe
        have hstart : Fits rs debt r.threshold 1 0 := hsafe.mono (mul_nonneg (Nat.cast_nonneg _) hu)
        rw [← sub_zero ((n : ℚ) * u), fits_units_iff hu le_rfl hstart, hn, hwithin] at hsafe
        exact ⟨hstart, hsafe⟩
      · rintro ⟨hstart, hsafe⟩
        rw [← sub_zero ((n : ℚ) * u), fits_units_iff hu le_rfl hstart, hn, hwithin]
        exact hsafe
    · rw [hlt] at hle
      refine freeBase_fits availableBorrows hstart hle ?_
      rw [← hlt]
      refine le_trans ?_ (units_le aave r.asset free)
      exact mul_le_mul_of_nonneg_right (Nat.cast_le.2 (hn ▸ Nat.min_le_left _ _)) hu
  · intro hmode hstart
    have htarget : aave.targetHfWithdraw r.asset target = .ok n := by
      rw [hr]
      exact withdraw_target hmode hrun
    have hn : n = min (aave.units r.asset excess) ((aave.aTokenBalance r.asset).getD 0) := by
      have := targetHfWithdraw_ok hdebt' htarget
      rwa [hC, AccountData.targetCollateral, hD] at this
    rw [hbefore] at hstart
    have hstart' := (le_healthAfter_iff hdebt).1 (le_of_lt hstart)
    rw [le_healthAfter_iff hdebt]
    refine ⟨?_, fun hle => ?_⟩
    · rw [fits_units_iff hu zero_le_one hstart', hn, hwithin]
    · rw [hlt] at hle
      refine targetCollateral_fits availableBorrows hstart' hle ?_
      rw [AccountData.targetCollateral, ← hlt]
      refine le_trans ?_ (units_le aave r.asset excess)
      exact mul_le_mul_of_nonneg_right (Nat.cast_le.2 (hn ▸ Nat.min_le_left _ _)) hu

/-- 100 of each of two assets, at thresholds of 90 % and 10 %: the average is 50 %. -/
def mixedReserves : List Reserve := [⟨⟨1⟩, 100 * 10 ^ 8, 9000⟩, ⟨⟨2⟩, 100 * 10 ^ 8, 1000⟩]

/-- The account of both reserves with this debt, as the pool and its oracle report it. -/
def mixedAave (debt : Nat) : Aave where
  account := accountData mixedReserves debt 0
  assetPrice := fun _ => 10 ^ 8
  decimals := fun _ => 18
  balanceOf := fun _ => 0
  aTokenBalance := fun _ => some (100 * 10 ^ 18)
  variableDebtBalance := fun _ => none

theorem withdraw_safe_iff_sample :
    withdraw (mixedAave (40 * 10 ^ 8)) fullPool (targetParams ⟨2⟩ (2 * 10 ^ 18)) [] =
        .ok ([.withdraw ⟨2⟩ (40 * 10 ^ 18)], [], []) ∧
      2 ≤ healthAfter mixedReserves (40 * 10 ^ 8) 1000
        (40 * 10 ^ 18 * (mixedAave (40 * 10 ^ 8)).unitValue ⟨2⟩ - 1) := by
  have hrun : withdraw (mixedAave (40 * 10 ^ 8)) fullPool (targetParams ⟨2⟩ (2 * 10 ^ 18)) [] =
      .ok ([.withdraw ⟨2⟩ (40 * 10 ^ 18)], [], []) := by decide +kernel
  have hlt : 1000 ≤ (mixedAave (40 * 10 ^ 8)).account.liquidationThreshold := by decide +kernel
  have hbefore : ((2 * 10 ^ 18 : Nat) : ℚ) / WAD <
      healthFactor (wad (weightedCollateral mixedReserves)) (wad (40 * 10 ^ 8)) := by
    decide +kernel
  have hsafe := ((withdraw_safe_iff (rfl : (mixedAave (40 * 10 ^ 8)).account = _) (by decide) hrun
    (rfl : (⟨⟨2⟩, 100 * 10 ^ 8, 1000⟩ : Reserve).asset = _)).2 rfl hbefore).2 hlt
  have heq : ((2 * 10 ^ 18 : Nat) : ℚ) / WAD = 2 := by decide +kernel
  change ((2 * 10 ^ 18 : Nat) : ℚ) / WAD ≤ _ at hsafe
  rw [heq] at hsafe
  refine ⟨hrun, ?_⟩
  exact_mod_cast hsafe

/-- The asset with the higher threshold: `TARGET_HF` from 2.5 to 2 ends at 1.6, and `MAX_AVAILABLE`
asks for what leaves less than 1. -/
theorem high_threshold_unsafe :
    (2 : ℚ) < healthFactor (wad (weightedCollateral mixedReserves)) (wad (40 * 10 ^ 8)) ∧
      withdraw (mixedAave (40 * 10 ^ 8)) fullPool (targetParams ⟨1⟩ (2 * 10 ^ 18)) [] =
        .ok ([.withdraw ⟨1⟩ (40 * 10 ^ 18)], [], []) ∧
      healthAfter mixedReserves (40 * 10 ^ 8) 9000
        (40 * 10 ^ 18 * (mixedAave (40 * 10 ^ 8)).unitValue ⟨1⟩ - 1) < 2 ∧
      (1 : ℚ) < healthFactor (wad (weightedCollateral mixedReserves)) (wad (90 * 10 ^ 8)) ∧
      withdraw (mixedAave (90 * 10 ^ 8)) fullPool { targetParams ⟨1⟩ 0 with mode := 2 } [] =
        .ok ([.withdraw ⟨1⟩ (199 * 10 ^ 17)], [], []) ∧
      healthAfter mixedReserves (90 * 10 ^ 8) 9000
        (199 * 10 ^ 17 * (mixedAave (90 * 10 ^ 8)).unitValue ⟨1⟩) < 1 := by
  refine ⟨?_, ?_, ?_, ?_, ?_, ?_⟩
  · decide +kernel
  · decide +kernel
  · decide +kernel
  · decide +kernel
  · decide +kernel
  · decide +kernel

end StrategyBuilder.Contracts.AaveActions
