import Mathlib.Algebra.Order.Field.Basic
import Mathlib.Data.Nat.Cast.Order.Ring
import Mathlib.Tactic.Linarith
import Mathlib.Tactic.Ring

/-!
# Rate envelopes

A limiter keeps its passes within an envelope when no interval has more of them
than a burst and what the rate adds during the interval.  The argument is the
usual one with a potential: the credit that is left fits into every interval
that ends now, time adds to it up to the burst, and a pass takes one from it.
-/

namespace RateEnvelope

variable {Time : Type*} [LinearOrder Time]

/-- The number of passes from `start` to `finish`. -/
def between (passes : List Time) (start finish : Time) : ℕ :=
  passes.countP fun time => decide (start ≤ time ∧ time ≤ finish)

section Counting

variable {now start finish : Time} {passes : List Time}

theorem between_append (more : List Time) :
    between (passes ++ more) start finish =
      between passes start finish + between more start finish :=
  List.countP_append

/-- Without later passes an interval may as well end now. -/
theorem between_of_past (hpast : ∀ time ∈ passes, time ≤ now)
    (hle : now ≤ finish) :
    between passes start finish = between passes start now := by
  refine List.countP_congr fun time hmem => ?_
  have htime := hpast time hmem
  simp only [decide_eq_true_eq, and_congr_right_iff]
  exact fun _ => ⟨fun _ => htime, fun _ => htime.trans hle⟩

theorem between_eq_zero (hpast : ∀ time ∈ passes, time ≤ now)
    (hlt : now < start) : between passes start finish = 0 := by
  refine List.countP_eq_zero.mpr fun time hmem => ?_
  simp only [decide_eq_true_eq, not_and]
  exact fun hstart => absurd (hstart.trans (hpast time hmem)) (not_le.mpr hlt)

end Counting

variable [Field Time]

/-- No interval has more passes than a burst and what the rate adds. -/
def Bounded (burst rate : Time) (passes : List Time) : Prop :=
  ∀ start finish, start ≤ finish →
    (between passes start finish : Time) ≤ burst + rate * (finish - start)

/-- Another `credit` passes fit into every interval that ends now. -/
structure Credit (burst rate : Time) (passes : List Time) (now credit : Time) :
    Prop where
  bounded : Bounded burst rate passes
  past : ∀ time ∈ passes, time ≤ now
  fits : ∀ start ≤ now,
    (between passes start now : Time) + credit ≤ burst + rate * (now - start)

variable {burst rate now later credit less start finish : Time}
  {passes : List Time}

variable [IsStrictOrderedRing Time]

theorem bounded_zero_le (hburst : 0 ≤ burst) (hrate : 0 ≤ rate)
    (hle : start ≤ finish) : 0 ≤ burst + rate * (finish - start) :=
  add_nonneg hburst (mul_nonneg hrate (sub_nonneg.mpr hle))

/-- Before the first pass the credit is the burst. -/
theorem Credit.nil (hburst : 0 ≤ burst) (hrate : 0 ≤ rate) (now : Time) :
    Credit burst rate [] now burst where
  bounded start finish hle := by
    rw [between, List.countP_nil, Nat.cast_zero]
    exact bounded_zero_le hburst hrate hle
  past _ hmem := by cases hmem
  fits start hle := by
    rw [between, List.countP_nil, Nat.cast_zero, zero_add]
    exact le_add_of_nonneg_right (mul_nonneg hrate (sub_nonneg.mpr hle))

theorem Credit.mono (hcredit : Credit burst rate passes now credit)
    (hless : less ≤ credit) : Credit burst rate passes now less where
  bounded := hcredit.bounded
  past := hcredit.past
  fits start hle := (add_le_add_right hless _).trans (hcredit.fits start hle)

/-- Time adds to the credit, up to the burst. -/
theorem Credit.elapse (hcredit : Credit burst rate passes now credit)
    (hrate : 0 ≤ rate) (hlater : now ≤ later) :
    Credit burst rate passes later
      (min (credit + rate * (later - now)) burst) where
  bounded := hcredit.bounded
  past time hmem := (hcredit.past time hmem).trans hlater
  fits start hle := by
    rcases le_or_gt start now with hstart | hstart
    · have hfits := hcredit.fits start hstart
      have hmin : min (credit + rate * (later - now)) burst ≤
          credit + rate * (later - now) := min_le_left _ _
      have hsplit : rate * (later - start) =
          rate * (now - start) + rate * (later - now) := by ring
      rw [between_of_past hcredit.past hlater, hsplit]
      linarith
    · have hmin : min (credit + rate * (later - now)) burst ≤ burst :=
        min_le_right _ _
      have hadded : 0 ≤ rate * (later - start) :=
        mul_nonneg hrate (sub_nonneg.mpr hle)
      rw [between_eq_zero hcredit.past hstart, Nat.cast_zero, zero_add]
      linarith

/-- A pass takes one from the credit. -/
theorem Credit.pass (hcredit : Credit burst rate passes now credit)
    (hburst : 0 ≤ burst) (hrate : 0 ≤ rate) (hone : 1 ≤ credit) :
    Credit burst rate (passes ++ [now]) now (credit - 1) := by
  have hpast : ∀ time ∈ passes ++ [now], time ≤ now := by
    intro time hmem
    rcases List.mem_append.mp hmem with hold | hnew
    · exact hcredit.past time hold
    · exact (List.mem_singleton.mp hnew).le
  have hfits : ∀ start ≤ now,
      (between (passes ++ [now]) start now : Time) + (credit - 1) ≤
        burst + rate * (now - start) := by
    intro start hle
    have hnew : between [now] start now = 1 := by simp [between, hle]
    have hbefore := hcredit.fits start hle
    rw [between_append, hnew, Nat.cast_add, Nat.cast_one]
    linarith
  refine ⟨fun start finish hle => ?_, hpast, hfits⟩
  rcases lt_or_ge finish now with hfinish | hfinish
  · have hnew : between [now] start finish = 0 := by
      simp [between, hfinish]
    rw [between_append, hnew, Nat.add_zero]
    exact hcredit.bounded start finish hle
  · rcases le_or_gt start now with hstart | hstart
    · have hend := hfits start hstart
      have hgrown : rate * (now - start) ≤ rate * (finish - start) :=
        mul_le_mul_of_nonneg_left (sub_le_sub_right hfinish start) hrate
      rw [between_of_past hpast hfinish]
      linarith
    · rw [between_eq_zero hpast hstart, Nat.cast_zero]
      exact bounded_zero_le hburst hrate hle

end RateEnvelope
