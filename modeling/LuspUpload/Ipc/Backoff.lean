import LuspUpload.Ipc.LinkSteps
import Mathlib.Algebra.Order.Ring.Nat

/-!
# Ipc.Backoff — the delay before a reconnect

`try_reconnect` doubles the interval with every attempt and caps it.  It does so in 32-bit arithmetic,
before the cap is applied, and the first attempt takes the plain interval.  The delays are the intended
ones exactly when the interval is within the cap and the last product still fits 32 bits.
-/

namespace LuspUpload.Ipc

open Lib Config

namespace LoopbackIpcClient

variable {cfg : NetworkConfig}

/-- The delay the backoff is meant to give: `interval * 2^(k-1)`, at most the cap. -/
def backoff (cfg : NetworkConfig) (k : ℕ) : ℕ :=
  min (cfg.reconnectIntervalMs.toNat * 2 ^ (k - 1)) cfg.reconnectBackoffMs.toNat

/-- `try_reconnect` arms the delay `d` for attempt number `k`. -/
def Arms (cfg : NetworkConfig) (k : ℕ) (d : UInt32) : Prop :=
  ∃ s : LoopbackIpcClient, s.currentReconnectAttempts + 1 = k ∧ .armed d ∈ (tryReconnect cfg s).2

/-- The backoff of a configuration is exact: for every attempt from the first on that is armed, and so
without a shift by 32 or more, without a wrap, and never decreasing. -/
structure ExactBackoff (cfg : NetworkConfig) : Prop where
  exact : ∀ k d, 1 ≤ k → Arms cfg k d → d.toNat = backoff cfg k
  shift : ∀ k d, 1 ≤ k → Arms cfg k d → k - 1 < 32
  noWrap : ∀ k d, 1 ≤ k → Arms cfg k d → cfg.reconnectIntervalMs.toNat * 2 ^ (k - 1) < 2 ^ 32
  monotone : ∀ k k' d d', 1 ≤ k → k ≤ k' → Arms cfg k d → Arms cfg k' d' → d ≤ d'

/-- Attempts are armed up to the maximum, each with its delay. -/
theorem arms_iff {errors : List String} (hvalid : (validateNetworkConfig cfg errors).1 = true) {k : ℕ}
    {d : UInt32} : Arms cfg k d ↔
      cfg.enableAutoReconnect = true ∧ k ≤ cfg.maxReconnectAttempts.toNat ∧ d = reconnectDelay cfg k := by
  obtain ⟨-, ⟨-, hmax⟩, -⟩ := reconnect_of_valid hvalid
  have hmax : cfg.maxReconnectAttempts.toInt32.toInt = cfg.maxReconnectAttempts.toNat := by
    have hle : cfg.maxReconnectAttempts.toNat ≤ 100 := UInt32.le_iff_toNat_le.mp hmax
    rw [Int32.toInt, UInt32.toBitVec_toInt32, BitVec.toInt_eq_toNat_of_lt]
    · rfl
    · show 2 * cfg.maxReconnectAttempts.toNat < 2 ^ 32
      omega
  constructor
  · rintro ⟨s, hk, harmed⟩
    rcases tryReconnect_cases cfg s with ⟨-, heq⟩ | ⟨-, heq⟩ | ⟨hstop, hauto, heq⟩
    · simp [heq] at harmed
    · simp [heq] at harmed
    · refine ⟨hauto, ?_, ?_⟩
      · by_contra hlate
        have hlate : cfg.maxReconnectAttempts.toInt32.toInt ≤ s.currentReconnectAttempts := by omega
        simp [tryReconnect, hstop, hauto, hlate] at harmed
      · rw [heq, List.mem_singleton] at harmed
        rw [← hk]
        injection harmed
  · rintro ⟨hauto, hk, rfl⟩
    have hearly : ¬ cfg.maxReconnectAttempts.toInt32.toInt ≤ (k : ℤ) - 1 := by omega
    refine ⟨{ create 0 with currentReconnectAttempts := (k : ℤ) - 1 }, by simp, ?_⟩
    simp [tryReconnect, create, hauto, hearly]

/-- Without a wrap the delay from the second attempt on is the intended one. -/
theorem reconnectDelay_toNat (hon : cfg.enableReconnectBackoff = true) {k : ℕ} (hk : 2 ≤ k)
    (hfits : cfg.reconnectIntervalMs.toNat * 2 ^ (k - 1) < 2 ^ 32) (hpos : 0 < cfg.reconnectIntervalMs.toNat) :
    (reconnectDelay cfg k).toNat = backoff cfg k := by
  have hpow : 2 ^ (k - 1) < 2 ^ 32 := lt_of_le_of_lt (Nat.le_mul_of_pos_left _ hpos) hfits
  have hshift : k - 1 < 32 := (Nat.pow_lt_pow_iff_right (by decide)).mp hpow
  have hcount : ((k : ℤ) - 1).toNat = k - 1 := by omega
  have hone : (1 <<< UInt32.ofNat (k - 1) : UInt32).toNat = 2 ^ (k - 1) := by
    rw [UInt32.toNat_shiftLeft, UInt32.toNat_ofNat', Nat.mod_eq_of_lt (by omega : k - 1 < 2 ^ 32),
      Nat.mod_eq_of_lt hshift, Nat.shiftLeft_eq]
    simpa using Nat.mod_eq_of_lt hpow
  have hprod : (cfg.reconnectIntervalMs * 1 <<< UInt32.ofNat (k - 1)).toNat =
      cfg.reconnectIntervalMs.toNat * 2 ^ (k - 1) := by
    rw [UInt32.toNat_mul, hone, Nat.mod_eq_of_lt hfits]
  have hlater : (1 : ℤ) < k := by omega
  simp only [reconnectDelay, hon, hlater, and_self, if_true, hcount, backoff, ← hprod]
  exact UInt32.toNat_min _ _

/-- The interval, doubled up to the last of `m` attempts, fits 32 bits. -/
theorem mul_two_pow_lt_iff {n m : ℕ} (hn : n ≠ 0) (hm : 1 ≤ m) :
    n * 2 ^ (m - 1) < 2 ^ 32 ↔ m + Nat.log2 n ≤ 32 := by
  have hsplit : m ≤ 32 → (2 : ℕ) ^ 32 = 2 ^ (33 - m) * 2 ^ (m - 1) := by
    intro hle
    rw [← Nat.pow_add]
    congr 1
    omega
  constructor
  · intro hlt
    have hpow : 2 ^ (m - 1) < 2 ^ 32 :=
      lt_of_le_of_lt (Nat.le_mul_of_pos_left _ (Nat.pos_of_ne_zero hn)) hlt
    have hle : m - 1 < 32 := (Nat.pow_lt_pow_iff_right (by decide)).mp hpow
    rw [hsplit (by omega)] at hlt
    have hlog : Nat.log2 n < 33 - m := (Nat.log2_lt hn).mpr (Nat.lt_of_mul_lt_mul_right hlt)
    omega
  · intro hle
    rw [hsplit (by omega)]
    have hlt : n < 2 ^ (33 - m) := (Nat.log2_lt hn).mp (by omega)
    exact Nat.mul_lt_mul_of_pos_right hlt (Nat.two_pow_pos _)

theorem backoff_mono {k k' : ℕ} (h : k ≤ k') : backoff cfg k ≤ backoff cfg k' := by
  have hpow : 2 ^ (k - 1) ≤ 2 ^ (k' - 1) := Nat.pow_le_pow_right (by decide) (by omega)
  exact min_le_min (Nat.mul_le_mul_left _ hpow) le_rfl

/-- **Backoff**: for a validated configuration with backoff the delays are exact if and only if it does
not reconnect at all, or the interval is at most the cap and the attempts are few enough for it. -/
theorem exactBackoff_iff {errors : List String} (hvalid : (validateNetworkConfig cfg errors).1 = true)
    (hon : cfg.enableReconnectBackoff = true) :
    ExactBackoff cfg ↔ cfg.enableAutoReconnect = false ∨
      (cfg.reconnectIntervalMs ≤ cfg.reconnectBackoffMs ∧
        cfg.maxReconnectAttempts.toNat + Nat.log2 cfg.reconnectIntervalMs.toNat ≤ 32) := by
  obtain ⟨⟨hlow, -⟩, ⟨hmax, -⟩, -⟩ := reconnect_of_valid hvalid
  have hlow : 100 ≤ cfg.reconnectIntervalMs.toNat := UInt32.le_iff_toNat_le.mp hlow
  have hmax : 1 ≤ cfg.maxReconnectAttempts.toNat := by
    have hne : cfg.maxReconnectAttempts.toNat ≠ 0 := fun h => hmax (UInt32.toNat_inj.mp h)
    omega
  rw [← mul_two_pow_lt_iff (by omega) hmax, UInt32.le_iff_toNat_le]
  constructor
  · intro hexact
    by_cases hauto : cfg.enableAutoReconnect = true
    · refine .inr ⟨?_, ?_⟩
      · have harms : Arms cfg 1 (reconnectDelay cfg 1) :=
          (arms_iff hvalid).mpr ⟨hauto, hmax, rfl⟩
        have hfirst := hexact.exact 1 _ le_rfl harms
        simp only [reconnectDelay, lt_irrefl, and_false, if_false, backoff, Nat.sub_self, Nat.pow_zero,
          Nat.mul_one] at hfirst
        omega
      · exact hexact.noWrap _ _ hmax ((arms_iff hvalid).mpr ⟨hauto, le_rfl, rfl⟩)
    · exact .inl (eq_false_of_ne_true hauto)
  · rintro (hauto | ⟨hcap, hfits⟩)
    · have hnever : ∀ k d, ¬ Arms cfg k d := by
        intro k d harms
        rw [((arms_iff hvalid).mp harms).1] at hauto
        cases hauto
      exact ⟨fun k d _ h => absurd h (hnever k d), fun k d _ h => absurd h (hnever k d),
        fun k d _ h => absurd h (hnever k d), fun k _ d _ _ _ h => absurd h (hnever k d)⟩
    · have hwrap : ∀ k, k ≤ cfg.maxReconnectAttempts.toNat →
          cfg.reconnectIntervalMs.toNat * 2 ^ (k - 1) < 2 ^ 32 := by
        intro k hk
        refine lt_of_le_of_lt (Nat.mul_le_mul_left _ ?_) hfits
        exact Nat.pow_le_pow_right (by decide) (by omega)
      have hdelay : ∀ k d, 1 ≤ k → Arms cfg k d → d.toNat = backoff cfg k := by
        intro k d hk harms
        obtain ⟨-, hle, rfl⟩ := (arms_iff hvalid).mp harms
        by_cases hfirst : k = 1
        · subst hfirst
          simp [reconnectDelay, backoff, hcap]
        · exact reconnectDelay_toNat hon (by omega) (hwrap k hle) (by omega)
      refine ⟨hdelay, ?_, ?_, ?_⟩
      · intro k d hk harms
        have hlt := hwrap k ((arms_iff hvalid).mp harms).2.1
        have hpow : 2 ^ (k - 1) < 2 ^ 32 := lt_of_le_of_lt (Nat.le_mul_of_pos_left _ (by omega)) hlt
        exact (Nat.pow_lt_pow_iff_right (by decide)).mp hpow
      · intro k d hk harms
        exact hwrap k ((arms_iff hvalid).mp harms).2.1
      · intro k k' d d' hk hle harms harms'
        rw [UInt32.le_iff_toNat_le, hdelay k d hk harms, hdelay k' d' (by omega) harms']
        exact backoff_mono hle

/-- The defaults: 1000 ms, five attempts, at most 2000 ms. -/
theorem exactBackoff_default : ExactBackoff {} :=
  (@exactBackoff_iff {} [] (by decide) rfl).mpr (.inr (by decide))

/-- The timer expires, and the server refuses once more. -/
def refusedAgain : List Act :=
  [.reconnectExpires, .reconnectTimer 0 true 0, .connectDone 0 (some ⟨.system, 111⟩) 0]

/-- The delay an event arms. -/
def armedDelay : Event → Option UInt32
  | .armed d => some d
  | _ => none

/-- An interval of 32768 ms is capped at 300 s from the fifth attempt on; the product of attempt 18 is
`2 ^ 32`, and its delay zero. -/
theorem backoff_wraps :
    ∃ cfg : NetworkConfig, (validateNetworkConfig cfg []).1 = true ∧ cfg.enableReconnectBackoff = true ∧
      (∃ s es, (link .posix cfg).run (create 1) ([.connect true 0, .connectDone 0 (some ⟨.system, 111⟩) 0] ++
          (List.replicate 17 refusedAgain).flatten) = some (s, es) ∧
        es.filterMap armedDelay =
          [32768, 65536, 131072, 262144] ++ List.replicate 13 300000 ++ [0]) ∧
      ¬ ExactBackoff cfg := by
  refine ⟨{ reconnectIntervalMs := 32768, reconnectBackoffMs := 300000, maxReconnectAttempts := 20 },
    by decide, rfl, ?_, ?_⟩
  · refine ⟨_, _, rfl, ?_⟩
    rfl
  · intro hexact
    have hlast := hexact.exact 18 0 (by decide) ((@arms_iff _ [] (by decide) _ _).mpr ⟨rfl, by decide, by decide⟩)
    exact absurd hlast (by decide)

end LoopbackIpcClient

end LuspUpload.Ipc
