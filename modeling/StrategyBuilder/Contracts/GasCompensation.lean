import Mathlib.Algebra.Order.Ring.Rat
import Mathlib.Algebra.Field.Rat
import Mathlib.Tactic.Linarith
import StrategyBuilder.Contracts.FeeRegistryCustody
import StrategyBuilder.Lib.FloorDiv

/-!
# What gas compensation pays

The amount that `deductGasComp` takes, against the exact cost. The cost in USD is floored twice, for
the native price and for the markup, and the token amount once. All branches of `_feeTokenAmount` are
one floored division by the price (`feeTokenAmount_ok`), so the amount is the exact one up to rounding
(`gas_compensation_exact`).
-/

set_option autoImplicit false

namespace StrategyBuilder.Contracts.FeeRegistry

open StrategyBuilder.Contracts
open StrategyBuilder.Lib

/-! ## One division for all branches -/

/-- A token with 18 decimals at most gets a floored amount. -/
theorem feeTokenAmountWithoutPrice_of_le {dec : Nat} (hdec : dec ≤ 18) (feeUSD : Nat) :
    feeTokenAmountWithoutPrice dec feeUSD = .ok (feeUSD / 10 ^ (18 - dec)) := by
  rw [feeTokenAmountWithoutPrice]
  by_cases h18 : dec = 18
  · rw [if_pos h18, h18, Nat.sub_self, pow_zero, Nat.div_one]
    rfl
  rw [if_neg h18]
  by_cases h6 : dec = 6
  · rw [if_pos h6, h6]
    rfl
  rw [if_neg h6]
  by_cases h8 : dec = 8
  · rw [if_pos h8, h8]
    rfl
  rw [if_neg h8, if_neg (Nat.not_lt_of_le hdec)]
  rfl

theorem feeTokenAmountWithoutPrice_of_lt {dec : Nat} (hdec : 18 < dec) (feeUSD : Nat) :
    feeTokenAmountWithoutPrice dec feeUSD =
      (checkedPow 10 (dec - 18) >>= fun scale => checkedMul feeUSD scale) := by
  rw [feeTokenAmountWithoutPrice, if_neg (by omega), if_neg (by omega), if_neg (by omega),
    if_pos hdec]

theorem floor_of_le {dec : Nat} (hdec : dec ≤ 18) (feeUSD : Nat) :
    feeUSD * 10 ^ dec / 10 ^ 18 = feeUSD / 10 ^ (18 - dec) := by
  have hsum : 10 ^ 18 = 10 ^ (18 - dec) * 10 ^ dec := by
    rw [← pow_add, Nat.sub_add_cancel hdec]
  rw [hsum]
  exact Nat.mul_div_mul_right feeUSD _ (Nat.pow_pos (by omega))

theorem floor_of_lt {dec : Nat} (hdec : 18 < dec) (feeUSD : Nat) :
    feeUSD * 10 ^ dec / 10 ^ 18 = feeUSD * 10 ^ (dec - 18) := by
  have hsum : 10 ^ dec = 10 ^ (dec - 18) * 10 ^ 18 := by
    rw [← pow_add, Nat.sub_add_cancel (Nat.le_of_lt hdec)]
  rw [hsum, ← Nat.mul_assoc]
  exact Nat.mul_div_cancel _ (by omega)

/-- Without a price the amount is floored as if one token were worth `10 ^ 18`. Only tokens with more
than 18 decimals can overflow. -/
theorem feeTokenAmountWithoutPrice_eq (dec : Nat) {feeUSD : Nat} (hpos : 0 < feeUSD)
    (hmax : feeUSD ≤ maxUint256) :
    feeTokenAmountWithoutPrice dec feeUSD =
      if feeUSD * 10 ^ dec / 10 ^ 18 ≤ maxUint256 then .ok (feeUSD * 10 ^ dec / 10 ^ 18)
      else .error (.panic 0x11) := by
  rcases Nat.lt_or_ge 18 dec with hdec | hdec
  · rw [feeTokenAmountWithoutPrice_of_lt hdec, floor_of_lt hdec, checkedPow]
    by_cases hpow : 10 ^ (dec - 18) ≤ maxUint256
    · rw [if_pos hpow]
      rfl
    · -- the power alone is too large already
      have hle : 10 ^ (dec - 18) ≤ feeUSD * 10 ^ (dec - 18) := Nat.le_mul_of_pos_left _ hpos
      rw [if_neg hpow, if_neg (by omega)]
      rfl
  · rw [feeTokenAmountWithoutPrice_of_le hdec, floor_of_le hdec,
      if_pos (Nat.le_trans (Nat.div_le_self _ _) hmax)]

/-- Whatever a branch without a price returns is that floor. -/
theorem feeTokenAmountWithoutPrice_ok {dec feeUSD n : Nat}
    (h : feeTokenAmountWithoutPrice dec feeUSD = .ok n) : n = feeUSD * 10 ^ dec / 10 ^ 18 := by
  rcases Nat.lt_or_ge 18 dec with hdec | hdec
  · rw [feeTokenAmountWithoutPrice_of_lt hdec] at h
    simp only [bind_eq_ok, checkedPow_eq_ok, checkedMul_eq_ok] at h
    obtain ⟨_, ⟨-, rfl⟩, -, rfl⟩ := h
    exact (floor_of_lt hdec feeUSD).symm
  · rw [feeTokenAmountWithoutPrice_of_le hdec] at h
    cases h
    exact (floor_of_le hdec feeUSD).symm

/-- The price of a token in the terms of the registry: that of its oracle, or `10 ^ 18` where that is
zero or not to be had. -/
def tokenPrice (msg : Msg) (token : Address) (r : Registry) : Nat :=
  match msg.oracle r.priceOracle token with
  | .price p => if p = 0 then 10 ^ 18 else p
  | .reverted => 10 ^ 18
  | .malformed => 10 ^ 18

/-- A token has a price, at least that of the fallback. -/
theorem tokenPrice_pos (msg : Msg) (token : Address) (r : Registry) : 0 < tokenPrice msg token r := by
  rw [tokenPrice]
  cases msg.oracle r.priceOracle token with
  | price p =>
    by_cases hp : p = 0
    · simp only [if_pos hp]
      omega
    · simp only [if_neg hp]
      omega
  | reverted => decide
  | malformed => decide

section Amounts

variable {msg : Msg} {token : Address} {r : Registry} {n : Nat}

/-- **One division**: every branch floors the fee by the price of the token. -/
theorem feeTokenAmount_ok {feeUSD : Nat} (henabled : (r.tokens token).enabled = true)
    (horacle : r.priceOracle ≠ Address.zero) (h : feeTokenAmount msg token feeUSD r = .ok n) :
    n = feeUSD * 10 ^ (r.tokens token).decimals / tokenPrice msg token r := by
  rw [feeTokenAmount] at h
  by_cases hzero : feeUSD = 0
  · rw [if_pos hzero] at h
    cases h
    rw [hzero, Nat.zero_mul, Nat.zero_div]
  rw [if_neg hzero, if_neg (by simp [henabled])] at h
  simp only [if_neg horacle] at h
  rw [tokenPrice]
  cases hprice : msg.oracle r.priceOracle token with
  | malformed =>
    rw [hprice] at h
    cases h
  | reverted =>
    rw [hprice] at h
    -- without a price the token counts as one USD
    exact feeTokenAmountWithoutPrice_ok h
  | price p =>
    simp only [hprice] at h
    by_cases hp : p = 0
    · rw [if_pos hp] at h
      simp only [if_pos hp]
      exact feeTokenAmountWithoutPrice_ok h
    · simp only [if_neg hp, bind_eq_ok, checkedPow_eq_ok, checkedMul_eq_ok, pure_eq_ok] at h
      obtain ⟨_, ⟨-, rfl⟩, _, ⟨-, rfl⟩, rfl⟩ := h
      simp only [if_neg hp]

/-- `tx.gasprice`, at most the cap if there is one. -/
def cappedGasPrice (msg : Msg) (r : Registry) : Nat :=
  if 0 < r.maxGasPrice then min msg.gasprice r.maxGasPrice else msg.gasprice

/-- The gas price that counts is the capped one. -/
theorem effectiveGasPrice_eq (msg : Msg) (r : Registry) :
    effectiveGasPrice msg r = cappedGasPrice msg r := by
  rw [effectiveGasPrice, cappedGasPrice]
  by_cases hcap : 0 < r.maxGasPrice
  · rw [if_pos hcap]
    by_cases hlt : r.maxGasPrice < msg.gasprice
    · rw [if_pos ⟨hcap, hlt⟩, Nat.min_eq_right (Nat.le_of_lt hlt)]
    · rw [if_neg fun h => hlt h.2, Nat.min_eq_left (Nat.le_of_not_lt hlt)]
  · rw [if_neg fun h => hcap h.1, if_neg hcap]

/-- The cost of the gas in USD, floored. -/
def gasCostUSD (gasUsed nativePrice : Nat) (msg : Msg) (r : Registry) : Nat :=
  (gasUsed + r.gasOverhead) * cappedGasPrice msg r * nativePrice / 10 ^ 18

/-- The amount before the token's price: cost and markup, each floored. -/
def gasCompUSD (gasUsed nativePrice : Nat) (msg : Msg) (r : Registry) : Nat :=
  let cost := gasCostUSD gasUsed nativePrice msg r
  cost + cost * r.executorMarkupBps / 10000

/-- What is paid out where all answers are there. -/
theorem computeGasComp_ok {gasUsed nativePrice : Nat} (hnative : 0 < nativePrice)
    (hprice : msg.oracle r.priceOracle r.nativeToken = .price nativePrice)
    (horacle : r.priceOracle ≠ Address.zero) (henabled : (r.tokens token).enabled = true)
    (h : computeGasComp msg token gasUsed r = .ok n) :
    n = gasCompUSD gasUsed nativePrice msg r * 10 ^ (r.tokens token).decimals /
      tokenPrice msg token r := by
  have hfetch : fetchNativePrice msg r = .ok nativePrice := by
    rw [fetchNativePrice, hprice]
    rfl
  rw [computeGasComp, if_neg horacle] at h
  simp only [bind_eq_ok, hfetch, Except.ok.injEq, exists_eq_left', if_neg (Nat.ne_of_gt hnative),
    checkedAdd_eq_ok] at h
  obtain ⟨_, ⟨-, rfl⟩, h⟩ := h
  rw [estimateGasCompWithPrice, effectiveGasPrice_eq] at h
  by_cases hgas : cappedGasPrice msg r = 0
  · rw [if_pos hgas] at h
    cases h
    simp [gasCompUSD, gasCostUSD, hgas]
  · simp only [if_neg hgas, bind_eq_ok, checkedMul_eq_ok, checkedAdd_eq_ok] at h
    obtain ⟨_, ⟨-, rfl⟩, _, ⟨-, rfl⟩, _, ⟨-, rfl⟩, _, ⟨-, rfl⟩, h⟩ := h
    exact feeTokenAmount_ok henabled horacle h

end Amounts

/-! ## The exact amount -/

/-- The exact cost in USD: the gas at the capped price, with the markup. -/
def exactCompUSD (gasUsed nativePrice : Nat) (msg : Msg) (r : Registry) : ℚ :=
  (gasUsed + r.gasOverhead) * cappedGasPrice msg r * nativePrice / 10 ^ 18 *
    (1 + r.executorMarkupBps / 10 ^ 4)

section Bounds

variable (gasUsed nativePrice : Nat) (msg : Msg) (r : Registry)

/-- The exact cost of the gas, before the markup. -/
theorem exactCompUSD_eq :
    exactCompUSD gasUsed nativePrice msg r =
      (((gasUsed + r.gasOverhead) * cappedGasPrice msg r * nativePrice : Nat) : ℚ) / (10 ^ 18 : Nat) *
        (1 + r.executorMarkupBps / 10 ^ 4) := by
  rw [exactCompUSD]
  push_cast
  rfl

/-- Two floors lose less than two units and one markup on a unit. -/
theorem gasCompUSD_bounds :
    (gasCompUSD gasUsed nativePrice msg r : ℚ) ≤ exactCompUSD gasUsed nativePrice msg r ∧
      exactCompUSD gasUsed nativePrice msg r <
        gasCompUSD gasUsed nativePrice msg r + (2 + r.executorMarkupBps / 10 ^ 4) := by
  rw [exactCompUSD_eq]
  -- the floor of the cost
  have hlow := floorDiv_le_div (K := ℚ)
    ((gasUsed + r.gasOverhead) * cappedGasPrice msg r * nativePrice) (b := 10 ^ 18) (by decide)
  have hhigh := div_lt_floorDiv_succ (K := ℚ)
    ((gasUsed + r.gasOverhead) * cappedGasPrice msg r * nativePrice) (b := 10 ^ 18) (by decide)
  change (gasCostUSD gasUsed nativePrice msg r : ℚ) ≤ _ at hlow
  change _ < (gasCostUSD gasUsed nativePrice msg r : ℚ) + 1 at hhigh
  generalize (((gasUsed + r.gasOverhead) * cappedGasPrice msg r * nativePrice : Nat) : ℚ) /
    (10 ^ 18 : Nat) = y at hlow hhigh ⊢
  rw [gasCompUSD]
  generalize gasCostUSD gasUsed nativePrice msg r = cost at hlow hhigh ⊢
  generalize hm : (r.executorMarkupBps : ℚ) / 10 ^ 4 = m
  have hnonneg : 0 ≤ m := by
    rw [← hm]
    positivity
  have hexact : ((cost * r.executorMarkupBps : Nat) : ℚ) / (10000 : Nat) = cost * m := by
    rw [← hm]
    push_cast
    ring
  -- the floor of the markup
  have hmarkup := floorDiv_le_div (K := ℚ) (cost * r.executorMarkupBps) (b := 10000) (by decide)
  have hmarkup' := div_lt_floorDiv_succ (K := ℚ) (cost * r.executorMarkupBps) (b := 10000)
    (by decide)
  rw [hexact] at hmarkup hmarkup'
  have hle : cost * m ≤ y * m := mul_le_mul_of_nonneg_right hlow hnonneg
  have hlt : y * m ≤ (cost + 1) * m := mul_le_mul_of_nonneg_right (le_of_lt hhigh) hnonneg
  rw [Nat.cast_add, mul_add, mul_one]
  constructor
  · linarith
  · linarith

/-- What the deduction moves. -/
theorem deductGasComp_ok {msg : Msg} {token executor : Address} {gasUsed n : Nat} {w w' : World}
    (hexecutor : executor ≠ w.self) (h : deductGasComp msg token executor gasUsed w = .ok (w', n)) :
    computeGasComp msg token gasUsed w.registry = .ok n ∧
      w'.registry.vaultDeposits msg.sender token + n = w.registry.vaultDeposits msg.sender token ∧
      w'.erc20.balanceOf token executor = w.erc20.balanceOf token executor + n := by
  obtain ⟨amount, hcompute, h⟩ := bind_eq_ok.1 h
  by_cases hzero : amount = 0
  · simp only [if_pos hzero, pure_eq_ok, Prod.mk.injEq] at h
    obtain ⟨rfl, rfl⟩ := h
    exact ⟨hzero ▸ hcompute, rfl, rfl⟩
  · simp only [if_neg hzero, bind_eq_ok, revertIf_eq_ok, safeTransfer_eq_ok, pure_eq_ok,
      Prod.mk.injEq] at h
    obtain ⟨-, havailable, _, ⟨-, -, -, rfl⟩, rfl, rfl⟩ := h
    refine ⟨hcompute, ?_, ?_⟩
    · change update₂ w.registry.vaultDeposits msg.sender token _ msg.sender token + amount = _
      rw [update₂_self]
      omega
    · change (w.erc20.move token w.self executor amount).balanceOf token executor = _
      rw [Erc20.move_balanceOf, if_pos ⟨rfl, rfl⟩, if_neg hexecutor.symm]

/-- The estimate for the same gas at the capped price is what a deduction computes. -/
theorem estimateGasComp_eq (msg : Msg) (caller token : Address) (gasUsed : Nat) (r : Registry) :
    estimateGasComp { msg with sender := caller } token gasUsed (cappedGasPrice msg r) r =
      computeGasComp msg token gasUsed r := by
  rw [← effectiveGasPrice_eq]
  rfl

end Bounds

/-- **Gas compensation is exact up to rounding.** The amount `n` is worth no more than the exact cost,
and with one token unit and `2 + markup` in USD more, it is worth more. The deposit of the vault falls
and the balance of the executor rises by `n`, the view gives `n` for the same gas at the capped price,
and all branches without a price are one floor. -/
theorem gas_compensation_exact {msg : Msg} {token executor : Address} {gasUsed n nativePrice : Nat}
    {w w' : World} (hnative : 0 < nativePrice) (horacle : w.registry.priceOracle ≠ Address.zero)
    (hprice : msg.oracle w.registry.priceOracle w.registry.nativeToken = .price nativePrice)
    (henabled : (w.registry.tokens token).enabled = true) (hexecutor : executor ≠ w.self)
    (h : deductGasComp msg token executor gasUsed w = .ok (w', n)) :
    let d := (w.registry.tokens token).decimals
    let p := tokenPrice msg token w.registry
    let X := exactCompUSD gasUsed nativePrice msg w.registry
    (n : ℚ) * p ≤ X * 10 ^ d ∧
      X * 10 ^ d < (n + 1) * p + (2 + w.registry.executorMarkupBps / 10 ^ 4) * 10 ^ d ∧
      w'.registry.vaultDeposits msg.sender token + n = w.registry.vaultDeposits msg.sender token ∧
      w'.erc20.balanceOf token executor = w.erc20.balanceOf token executor + n ∧
      (∀ caller, estimateGasComp { msg with sender := caller } token gasUsed
        (cappedGasPrice msg w.registry) w.registry = .ok n) ∧
      (∀ dec feeUSD m, feeTokenAmountWithoutPrice dec feeUSD = .ok m →
        m = feeUSD * 10 ^ dec / 10 ^ 18) ∧
      ∀ dec feeUSD, 0 < feeUSD → feeUSD ≤ maxUint256 → feeTokenAmountWithoutPrice dec feeUSD =
        if feeUSD * 10 ^ dec / 10 ^ 18 ≤ maxUint256 then .ok (feeUSD * 10 ^ dec / 10 ^ 18)
        else .error (.panic 0x11) := by
  intro d p X
  obtain ⟨hcompute, hdeposit, hbalance⟩ := deductGasComp_ok hexecutor h
  have hn : n = gasCompUSD gasUsed nativePrice msg w.registry * 10 ^ d / p :=
    computeGasComp_ok hnative hprice horacle henabled hcompute
  obtain ⟨hlow, hhigh⟩ := gasCompUSD_bounds gasUsed nativePrice msg w.registry
  change (_ : ℚ) ≤ X at hlow
  change X < _ at hhigh
  generalize gasCompUSD gasUsed nativePrice msg w.registry = fee at hn hlow hhigh
  have hscale : (0 : ℚ) < 10 ^ d := by positivity
  -- the floor of the conversion into the token
  have hfloor : (n : ℚ) * p ≤ fee * 10 ^ d := by
    have := floorDiv_mul_le (K := ℚ) (fee * 10 ^ d) p
    rw [← hn] at this
    exact_mod_cast this
  have hfloor' : (fee : ℚ) * 10 ^ d < (n + 1) * p := by
    have := lt_floorDiv_succ_mul (K := ℚ) (fee * 10 ^ d) (tokenPrice_pos msg token w.registry)
    rw [← hn] at this
    exact_mod_cast this
  refine ⟨?_, ?_, hdeposit, hbalance, fun caller => ?_, fun _ _ _ => feeTokenAmountWithoutPrice_ok,
    fun dec _ => feeTokenAmountWithoutPrice_eq dec⟩
  · exact le_trans hfloor (mul_le_mul_of_nonneg_right hlow (le_of_lt hscale))
  · have hscaled := mul_lt_mul_of_pos_right hhigh hscale
    rw [add_mul] at hscaled
    linarith
  · rw [estimateGasComp_eq]
    exact hcompute

/-- A registry with a cap and a markup of a tenth, and a vault with a deposit in a token with six
decimals. -/
def cappedWorld : World where
  self := ⟨1⟩
  registry := { Registry.deployed ⟨2⟩ with
    tokens := fun _ => ⟨true, 6⟩
    vaultDeposits := fun _ _ => 1000000
    priceOracle := ⟨7⟩
    nativeToken := ⟨8⟩
    executorMarkupBps := 1000
    gasOverhead := 50000
    maxGasPrice := 5000000000 }
  erc20 := ⟨fun _ _ => 1000000, fun _ _ _ => 0⟩
  logs := []

/-- The vault 3 asks; the native token costs 600 USD, and the price of no other token is known. -/
def pricedMsg : Msg where
  sender := ⟨3⟩
  gasprice := 10000000000
  oracle := fun _ token => if token = ⟨8⟩ then .price (600 * 10 ^ 18) else .reverted

theorem gas_compensation_exact_sample :
    ∃ w, deductGasComp pricedMsg ⟨4⟩ ⟨5⟩ 100000 cappedWorld = .ok (w, 495000) ∧
      w.registry.vaultDeposits ⟨3⟩ ⟨4⟩ + 495000 = 1000000 ∧
      w.erc20.balanceOf ⟨4⟩ ⟨5⟩ = 1000000 + 495000 := by
  have hcompute : computeGasComp pricedMsg ⟨4⟩ 100000 cappedWorld.registry = .ok 495000 := by
    decide
  have h : ∃ w, deductGasComp pricedMsg ⟨4⟩ ⟨5⟩ 100000 cappedWorld = .ok (w, 495000) := by
    rw [deductGasComp, hcompute]
    exact ⟨_, rfl⟩
  obtain ⟨w, hw⟩ := h
  obtain ⟨-, -, hdeposit, hbalance, -⟩ :=
    gas_compensation_exact (Nat.mul_pos (by decide) (Nat.pow_pos (by decide))) (by decide) rfl rfl
      (by decide) hw
  exact ⟨w, hw, hdeposit, hbalance⟩

end StrategyBuilder.Contracts.FeeRegistry
