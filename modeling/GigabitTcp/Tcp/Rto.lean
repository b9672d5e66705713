/-
  GigabitTcp.Tcp.Rto — the RTO estimator under a constant round-trip time.

  The estimator keeps `srtt` as eight times the smoothed RTT.  A constant RTT is a fixed point
  of it, so `srtt` never moves after the first sample.  The update of `rttvar` multiplies by
  `srtt` where Van Jacobson's formula has a constant factor; for every RTT that the clamp lets
  through this product is far beyond 32 bits, already with the second sample.

  Main results:
    * `rtoAfter_srtt`         — `srtt` stands still,
    * `rto_second_wraps`      — the second call wraps, whatever the RTT,
    * `tcp_rto_stable_iff`    — the law holds for one sample, and for no run beyond it.
-/
import GigabitTcp.LayerTcp
import Mathlib.Logic.Function.Iterate

namespace GigabitTcp

open Hw

/-! ## §1. The law. -/

/-- The distance of a sample from the smoothed RTT. -/
def rtoDelta (c : TcpConn) (r : U32) : Nat := ((r.toNat : Int) - (c.srtt.toNat / 8 : Nat)).natAbs

/-- No 32-bit operation of a call wraps: neither the shifts of the first sample, nor the signed
difference and its triple, nor the two updates, nor the sum that becomes the RTO. -/
structure RtoExact (c : TcpConn) (r : U32) : Prop where
  first : c.srtt = 0 → r.toNat * 8 < 2 ^ 32
  delta : c.srtt ≠ 0 → rtoDelta c r * 3 < 2 ^ 31
  rttvar : c.srtt ≠ 0 → c.rttvar.toNat * c.srtt.toNat + rtoDelta c r * 3 < 2 ^ 32
  srtt : c.srtt ≠ 0 → c.srtt.toNat - c.srtt.toNat / 8 + r.toNat < 2 ^ 32
  rto : (tcpUpdateRto c r).srtt.toNat / 8 + (tcpUpdateRto c r).rttvar.toNat * 2 < 2 ^ 32

/-- The record after `n` samples of one RTT. -/
def rtoAfter (c : TcpConn) (r : U32) (n : Nat) : TcpConn := (fun c => tcpUpdateRto c r)^[n] c

/-- **Stability** over `n` samples of one RTT. -/
structure RtoStable (c : TcpConn) (r : U32) (n : Nat) : Prop where
  noWrap : ∀ k, k < n → RtoExact (rtoAfter c r k) r
  srtt : ((rtoAfter c r n).srtt >>> 3).toNat ≤ r.toNat + 1 ∧ r.toNat ≤ ((rtoAfter c r n).srtt >>> 3).toNat + 1
  rttvar : ∀ k, 1 ≤ k → k < n → (rtoAfter c r (k + 1)).rttvar ≤ (rtoAfter c r k).rttvar
  rto : ∀ k, 1 ≤ k → k < n → (rtoAfter c r (k + 1)).rto ≤ (rtoAfter c r k).rto

/-! ## §2. The calls. -/

theorem rtoAfter_succ (c : TcpConn) (r : U32) (n : Nat) :
    rtoAfter c r (n + 1) = tcpUpdateRto (rtoAfter c r n) r :=
  Function.iterate_succ_apply' _ _ _

/-- The first sample. -/
theorem tcpUpdateRto_first {c : TcpConn} (r : U32) (h : c.srtt = 0) :
    (tcpUpdateRto c r).srtt = r <<< 3 ∧ (tcpUpdateRto c r).rttvar = r <<< 1 := by
  unfold tcpUpdateRto
  rw [if_pos h]
  exact ⟨rfl, rfl⟩

/-- A later sample. -/
theorem tcpUpdateRto_later {c : TcpConn} (r : U32) (h : c.srtt ≠ 0) :
    (tcpUpdateRto c r).srtt = c.srtt - (c.srtt >>> 3) + r := by
  unfold tcpUpdateRto
  rw [if_neg h]

section Range

variable {c : TcpConn} {r : U32}

/-- The shifts of the estimator move the sample by three places at most, and lose no bit. -/
theorem toNat_shl (hmax : 5 * r.toNat ≤ tcpRtoMax.toNat) {k : Nat} (hk : k ≤ 3) :
    (r <<< k).toNat = r.toNat * 2 ^ k := by
  have hlimit : tcpRtoMax.toNat = 80000000 := rfl
  have hscale : r.toNat * 2 ^ k ≤ r.toNat * 2 ^ 3 :=
    Nat.mul_le_mul_left _ (Nat.pow_le_pow_right (by decide) hk)
  rw [BitVec.toNat_shiftLeft, Nat.shiftLeft_eq]
  exact Nat.mod_eq_of_lt (by omega)

/-- **A constant RTT is a fixed point** of the smoothed RTT. -/
theorem rtoAfter_srtt (hmin : tcpRtoMin.toNat ≤ 5 * r.toNat) (hmax : 5 * r.toNat ≤ tcpRtoMax.toNat)
    (hsrtt : c.srtt = 0) (n : Nat) : (rtoAfter c r (n + 1)).srtt = r <<< 3 := by
  have hbottom : tcpRtoMin.toNat = 10000000 := rfl
  have hlimit : tcpRtoMax.toNat = 80000000 := rfl
  have height : (r <<< 3).toNat = r.toNat * 8 := toNat_shl hmax (by decide)
  induction n with
  | zero =>
      rw [rtoAfter_succ]
      exact (tcpUpdateRto_first r hsrtt).1
  | succ n ih =>
      have hne : (rtoAfter c r (n + 1)).srtt ≠ 0 := by
        rw [ih, ne_eq, ← BitVec.toNat_inj, height]
        show ¬ r.toNat * 8 = 0
        omega
      rw [rtoAfter_succ, tcpUpdateRto_later r hne, ih]
      apply BitVec.eq_of_toNat_eq
      have hshift : ((r <<< 3) >>> 3).toNat = r.toNat := by
        rw [BitVec.toNat_ushiftRight, height, Nat.shiftRight_eq_div_pow]
        omega
      rw [BitVec.toNat_add, BitVec.toNat_sub, hshift, height]
      omega

/-- One sample: every operation is exact, and the smoothed RTT is the sample. -/
theorem rtoStable_one (hmax : 5 * r.toNat ≤ tcpRtoMax.toNat) (hsrtt : c.srtt = 0) : RtoStable c r 1 := by
  have hlimit : tcpRtoMax.toNat = 80000000 := rfl
  have hafter : rtoAfter c r 1 = tcpUpdateRto c r := rfl
  obtain ⟨hfirst, hvar⟩ := tcpUpdateRto_first r hsrtt
  have height : (r <<< 3).toNat = r.toNat * 8 := toNat_shl hmax (by decide)
  have hdouble : (r <<< 1).toNat = r.toNat * 2 := toNat_shl hmax (by decide)
  constructor
  · intro k hk
    obtain rfl : k = 0 := by omega
    show RtoExact c r
    refine ⟨fun _ => by omega, fun h => absurd hsrtt h, fun h => absurd hsrtt h, fun h => absurd hsrtt h, ?_⟩
    rw [hfirst, hvar, height, hdouble]
    omega
  · rw [hafter, hfirst, BitVec.toNat_ushiftRight, height, Nat.shiftRight_eq_div_pow]
    omega
  · intro k hk hlt
    omega
  · intro k hk hlt
    omega

/-- **The second call wraps**: sixteen times the square of the RTT does not fit. -/
theorem rto_second_wraps (hmin : tcpRtoMin.toNat ≤ 5 * r.toNat) (hmax : 5 * r.toNat ≤ tcpRtoMax.toNat)
    (hsrtt : c.srtt = 0) : ¬ RtoExact (rtoAfter c r 1) r := by
  have hbottom : tcpRtoMin.toNat = 10000000 := rfl
  intro h
  have hafter : rtoAfter c r 1 = tcpUpdateRto c r := rfl
  obtain ⟨hfirst, hvar⟩ := tcpUpdateRto_first r hsrtt
  have height : (r <<< 3).toNat = r.toNat * 8 := toNat_shl hmax (by decide)
  have hdouble : (r <<< 1).toNat = r.toNat * 2 := toNat_shl hmax (by decide)
  have hne : (rtoAfter c r 1).srtt ≠ 0 := by
    rw [hafter, hfirst, ne_eq, ← BitVec.toNat_inj, height]
    show ¬ r.toNat * 8 = 0
    omega
  have hproduct := h.rttvar hne
  rw [hafter, hfirst, hvar, height, hdouble] at hproduct
  have hsquare : 2000000 * 2000000 ≤ r.toNat * 2 * (r.toNat * 8) := Nat.mul_le_mul (by omega) (by omega)
  omega

end Range

/-- **The RTO under a constant RTT.**  For every RTT whose RTO the clamp lets through, the law
holds after one sample, and after no larger number of samples.  The smoothed RTT is not to blame:
it is the sample after every call. -/
theorem tcp_rto_stable_iff (c : TcpConn) (r : U32) (n : Nat) (hsrtt : c.srtt = 0)
    (hmin : tcpRtoMin.toNat ≤ 5 * r.toNat) (hmax : 5 * r.toNat ≤ tcpRtoMax.toNat) (hn : 1 ≤ n) :
    (RtoStable c r n ↔ n = 1) ∧ (rtoAfter c r n).srtt = r <<< 3 := by
  refine ⟨⟨fun h => ?_, ?_⟩, ?_⟩
  · by_contra hmore
    exact rto_second_wraps hmin hmax hsrtt (h.noWrap 1 (by omega))
  · rintro rfl
    exact rtoStable_one hmax hsrtt
  · obtain ⟨k, rfl⟩ := Nat.exists_eq_add_of_le' hn
    exact rtoAfter_srtt hmin hmax hsrtt k

/-- A fresh connection with an RTT of 2000000 cycles. -/
theorem tcp_rto_stable_once : RtoStable {} 2000000 1 :=
  (tcp_rto_stable_iff {} 2000000 1 rfl (by decide) (by decide) (by decide)).1.mpr rfl

/-- Its second sample wraps; `rttvar` and the RTO grow, though the sample is what was expected. -/
theorem tcp_rto_unstable :
    ¬ RtoStable {} 2000000 2
      ∧ (rtoAfter {} 2000000 1).rttvar < (rtoAfter {} 2000000 2).rttvar
      ∧ (rtoAfter {} 2000000 1).rto < (rtoAfter {} 2000000 2).rto :=
  ⟨fun h => rto_second_wraps (by decide) (by decide) rfl (h.noWrap 1 (by decide)), by decide, by decide⟩

end GigabitTcp
