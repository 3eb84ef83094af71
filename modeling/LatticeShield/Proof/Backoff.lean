import LatticeShield.Client.Backoff

/-!
# The arithmetic of `backoff`

Up to the jitter everything is exact for every configuration: the factor is at most `2 ^ 20`, the
product saturates above any cap, and twice a fifth of a `u64` is a `u64` (`cappedMs_toNat`,
`modulus_fits`). Then the computation changes to `i64`, of which `validate` knows nothing: it
compares the two delays and bounds neither. What is left to ask is one inequality, that the delay
with its jitter is an `i64` (`tail_fits_iff`). Where it is, the result is what the comments say.
-/

set_option autoImplicit false

namespace LatticeShield.Client

open Lib

/-! ## In integers -/

def cappedDelay (attempt : UInt32) (cfg : ReconnectConfig) : Nat :=
  min (cfg.baseDelayMs.toNat * 2 ^ min attempt.toNat 20) cfg.maxDelayMs.toNat

def jitterSpan (capped : Nat) : Nat := max (capped / 5) 1

def jitter (capped : Nat) (random : UInt32) : Nat := random.toNat % (2 * jitterSpan capped + 1)

/-- No operation overflows, no cast changes a value, and the delay is at least a millisecond and
within the jitter of the capped one. The first two are said of every intermediate result, as
`Checked` records them, and not only of what comes out. -/
structure BackoffRight (attempt : UInt32) (cfg : ReconnectConfig) (random : UInt32) : Prop where
  fits : (backoff attempt cfg random).fits = true
  positive : 1 ≤ (backoff attempt cfg random).value.toNat
  upper : (backoff attempt cfg random).value.toNat ≤
    cappedDelay attempt cfg + jitterSpan (cappedDelay attempt cfg)
  lower : cappedDelay attempt cfg ≤
    (backoff attempt cfg random).value.toNat + jitterSpan (cappedDelay attempt cfg)

/-! ## Up to the jitter -/

theorem min_toNat (attempt : UInt32) : (min attempt 20).toNat = min attempt.toNat 20 := by
  have hmin : min attempt 20 = if attempt ≤ 20 then attempt else 20 := rfl
  rw [hmin]
  split
  · rename_i hle
    exact (Nat.min_eq_left hle).symm
  · rename_i hle
    exact (Nat.min_eq_right (Nat.le_of_not_le hle)).symm

theorem factor_fits (attempt : UInt32) : (shlU64 1 (min attempt 20)).fits = true := by
  have hle : min attempt.toNat 20 ≤ 20 := Nat.min_le_right _ _
  rw [shlU64, decide_eq_true_eq, min_toNat]
  omega

theorem factor_toNat (attempt : UInt32) :
    (shlU64 1 (min attempt 20)).value.toNat = 2 ^ min attempt.toNat 20 := by
  have hle : min attempt.toNat 20 ≤ 20 := Nat.min_le_right _ _
  have hpow : 2 ^ min attempt.toNat 20 ≤ 2 ^ 20 := Nat.pow_le_pow_right (by decide) hle
  have hwidth : min attempt.toNat 20 % 64 = min attempt.toNat 20 := Nat.mod_eq_of_lt (by omega)
  rw [shlU64, UInt64.toNat_shiftLeft, UInt32.toNat_toUInt64, min_toNat, hwidth,
    UInt64.toNat_one, Nat.one_shiftLeft]
  exact Nat.mod_eq_of_lt (by omega)

/-- `capped`, as the source computes it. -/
def cappedMs (attempt : UInt32) (cfg : ReconnectConfig) : UInt64 :=
  min (saturatingMul cfg.baseDelayMs (shlU64 1 (min attempt 20)).value) cfg.maxDelayMs

theorem cappedMs_toNat (attempt : UInt32) (cfg : ReconnectConfig) :
    (cappedMs attempt cfg).toNat = cappedDelay attempt cfg := by
  rw [cappedMs, toNat_min_saturatingMul, factor_toNat, cappedDelay]

def spanMs (capped : UInt64) : UInt64 := max (capped / 5) 1

theorem spanMs_toNat (capped : UInt64) : (spanMs capped).toNat = jitterSpan capped.toNat := by
  rw [spanMs, toNat_maxU64, UInt64.toNat_div, jitterSpan]
  rfl

/-- A `u64` has room for the bounds of the jitter: the span is at most a fifth of the cap, and
twice that and one fit. -/
theorem modulus_fits (capped : UInt64) :
    (mulU64 (spanMs capped) 2).fits = true ∧
      (addU64 (mulU64 (spanMs capped) 2).value 1).fits = true ∧
      (addU64 (mulU64 (spanMs capped) 2).value 1).value.toNat =
        2 * jitterSpan capped.toNat + 1 := by
  have hcapped := capped.toNat_lt
  have hspan := spanMs_toNat capped
  have hle : jitterSpan capped.toNat ≤ 2 ^ 62 := by
    unfold jitterSpan
    omega
  have hmul : (spanMs capped).toNat * (2 : UInt64).toNat < 2 ^ 64 := by
    rw [hspan]
    change _ * 2 < _
    omega
  have hdoubled := toNat_mulU64 hmul
  rw [hspan] at hdoubled
  change _ = _ * 2 at hdoubled
  have hadd : (mulU64 (spanMs capped) 2).value.toNat + (1 : UInt64).toNat < 2 ^ 64 := by
    rw [hdoubled]
    change _ + 1 < _
    omega
  refine ⟨decide_eq_true hmul, decide_eq_true hadd, ?_⟩
  rw [toNat_addU64 hadd, hdoubled, Nat.mul_comm]
  rfl

/-! ## In `i64` -/

/-- The lines from the jitter on. They are in `i64`, and this is where a delay from the file can
be too large. -/
def backoffTail (capped jitter : UInt64) : Checked UInt64 := do
  let sum ← addI64 (← toI64 capped) (← toI64 jitter)
  let ms ← subI64 sum (← toI64 (spanMs capped))
  toU64 (max ms 1)

theorem backoff_eq (attempt : UInt32) (cfg : ReconnectConfig) (random : UInt32) :
    ∃ jitterMs : UInt64, jitterMs.toNat = jitter (cappedDelay attempt cfg) random ∧
      (backoff attempt cfg random).fits = (backoffTail (cappedMs attempt cfg) jitterMs).fits ∧
      (backoff attempt cfg random).value = (backoffTail (cappedMs attempt cfg) jitterMs).value := by
  obtain ⟨hmul, hadd, hmodulus⟩ := modulus_fits (cappedMs attempt cfg)
  refine ⟨random.toUInt64 % (addU64 (mulU64 (spanMs (cappedMs attempt cfg)) 2).value 1).value,
    ?_, ?_, rfl⟩
  · rw [UInt64.toNat_mod, hmodulus, cappedMs_toNat, UInt32.toNat_toUInt64, jitter]
  · rw [backoff, Checked.fits_bind, factor_fits, Bool.true_and]
    change ((mulU64 (spanMs (cappedMs attempt cfg)) 2).fits &&
      ((addU64 (mulU64 (spanMs (cappedMs attempt cfg)) 2).value 1).fits && _)) = _
    rw [hmul, hadd, Bool.true_and, Bool.true_and]
    rfl

theorem spanMs_lt (capped : UInt64) : (spanMs capped).toNat < 2 ^ 63 := by
  have hcapped := capped.toNat_lt
  rw [spanMs_toNat, jitterSpan]
  omega

/-- With room for the sum, every step is exact. The room is that of an `i64`, which the source
computes the difference in. -/
theorem tail_exact {capped jitterMs : UInt64} (h : capped.toNat + jitterMs.toNat < 2 ^ 63) :
    (backoffTail capped jitterMs).fits = true ∧
      ((backoffTail capped jitterMs).value.toNat : Int) =
        max (capped.toNat + jitterMs.toNat - jitterSpan capped.toNat : Int) 1 := by
  have hspan := spanMs_lt capped
  have hcast := toInt_toI64 (a := capped) (by omega)
  have hcast' := toInt_toI64 (a := jitterMs) (by omega)
  have hcastSpan := toInt_toI64 hspan
  have hsum : InI64 ((toI64 capped).value.toInt + (toI64 jitterMs).value.toInt) := by
    rw [hcast, hcast']
    constructor <;> omega
  have hsumValue := toInt_addI64 hsum
  rw [hcast, hcast'] at hsumValue
  have hsub : InI64 ((addI64 (toI64 capped).value (toI64 jitterMs).value).value.toInt -
      (toI64 (spanMs capped)).value.toInt) := by
    rw [hsumValue, hcastSpan]
    constructor <;> omega
  have hsubValue := toInt_subI64 hsub
  rw [hsumValue, hcastSpan, spanMs_toNat] at hsubValue
  have hone : (1 : Int64).toInt = 1 := rfl
  have hmax := toInt_maxI64 (subI64 (addI64 (toI64 capped).value (toI64 jitterMs).value).value
    (toI64 (spanMs capped)).value).value 1
  rw [hsubValue, hone] at hmax
  have hpos : 0 ≤ (max (subI64 (addI64 (toI64 capped).value (toI64 jitterMs).value).value
      (toI64 (spanMs capped)).value).value 1).toInt := by
    rw [hmax]
    omega
  constructor
  · simp only [backoffTail, Checked.fits_bind, Bool.and_eq_true]
    exact ⟨decide_eq_true (by omega), decide_eq_true (by omega), decide_eq_true hsum,
      decide_eq_true hspan, decide_eq_true hsub, decide_eq_true hpos⟩
  · exact (toNat_toU64 hpos).trans hmax

theorem tail_fits_iff (capped jitterMs : UInt64) (hjitter : jitterMs.toNat < 2 ^ 63) :
    (backoffTail capped jitterMs).fits = true ↔ capped.toNat + jitterMs.toNat < 2 ^ 63 := by
  constructor
  · intro h
    simp only [backoffTail, Checked.fits_bind, Bool.and_eq_true] at h
    obtain ⟨hcapped, -, hsum, -⟩ := h
    have hcapped : capped.toNat < 2 ^ 63 := of_decide_eq_true hcapped
    have hsum : InI64 _ := of_decide_eq_true hsum
    rw [toInt_toI64 hcapped, toInt_toI64 hjitter] at hsum
    have hlt := hsum.2
    omega
  · intro h
    exact (tail_exact h).1

/-- Half of the jitter's range is the span, and where the floor is in force the span is the whole
delay. -/
theorem delay_near {capped jitterMs : Nat} (h : jitterMs ≤ 2 * jitterSpan capped) {ms : Nat}
    (hms : (ms : Int) = max (capped + jitterMs - jitterSpan capped : Int) 1) :
    1 ≤ ms ∧ ms ≤ capped + jitterSpan capped ∧ capped ≤ ms + jitterSpan capped := by
  have hspan : 1 ≤ jitterSpan capped := Nat.le_max_right _ _
  have hfloor : jitterSpan capped ≤ capped ∨ capped ≤ 1 := by
    unfold jitterSpan
    omega
  omega

theorem jitter_le (capped : Nat) (random : UInt32) : jitter capped random ≤ 2 * jitterSpan capped :=
  Nat.le_of_lt_succ (Nat.mod_lt _ (Nat.succ_pos _))

theorem jitter_lt (capped : Nat) (random : UInt32) : jitter capped random < 2 ^ 63 := by
  have hrandom := random.toNat_lt
  have hle : jitter capped random ≤ random.toNat := Nat.mod_le _ _
  omega

/-! ## The whole -/

/-- **Exactly when.** For every attempt, every random value and all delays, accepted or not, the
arithmetic is right if and only if the capped delay and its jitter together are below `2 ^ 63`. -/
theorem backoff_exact_iff (attempt : UInt32) (cfg : ReconnectConfig) (random : UInt32) :
    BackoffRight attempt cfg random ↔
      cappedDelay attempt cfg + jitter (cappedDelay attempt cfg) random < 2 ^ 63 := by
  obtain ⟨jitterMs, hjitter, hfits, hvalue⟩ := backoff_eq attempt cfg random
  have hlt : jitterMs.toNat < 2 ^ 63 := hjitter ▸ jitter_lt _ _
  have hiff := tail_fits_iff (cappedMs attempt cfg) jitterMs hlt
  rw [cappedMs_toNat, hjitter] at hiff
  constructor
  · intro h
    exact hiff.mp (hfits.symm.trans h.fits)
  · intro h
    have hroom : (cappedMs attempt cfg).toNat + jitterMs.toNat < 2 ^ 63 := by
      rw [cappedMs_toNat, hjitter]
      exact h
    have hexact := tail_exact hroom
    rw [cappedMs_toNat, hjitter, ← hvalue, ← hfits] at hexact
    obtain ⟨hpos, hupper, hlower⟩ := delay_near (jitter_le _ _) hexact.2
    exact ⟨hexact.1, hpos, hupper, hlower⟩

/-- The largest delay a TOML file can hold. -/
def longDelays : ReconnectConfig where
  baseDelayMs := 9223372036854775807
  maxDelayMs := 9223372036854775807

/-- It is accepted, and one millisecond of jitter is too much for it: `validate` compares the two
delays with each other and has no upper bound for either. -/
theorem backoff_overflows : ¬ ∀ (config : ClientConfig) (valid : RunConfig)
    (attempt random : UInt32), config.validate = .ok valid →
      BackoffRight attempt valid.reconnect random := by
  intro h
  have hvalid : (ClientConfig.validate { reconnect := longDelays }).toOption.map (·.reconnect) =
      some longDelays := by decide +kernel
  obtain ⟨valid, hvalid, hreconnect⟩ := exists_ok_of_map hvalid
  have hfits := (h _ valid 0 1 hvalid).fits
  rw [hreconnect] at hfits
  exact absurd hfits (by decide +kernel)

end LatticeShield.Client
