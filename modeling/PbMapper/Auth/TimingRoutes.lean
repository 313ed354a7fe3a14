import PbMapper.Auth.TimingWheel
import Mathlib.Tactic.IntervalCases
import Mathlib.Tactic.Linarith

/-!
# Routes of the timing wheel

A schedule adds one route, due `delay` ticks from now; a tick takes off the
routes due at it and no other.
-/

namespace PbMapper.Auth

open MachineWord

namespace TimingWheel

variable {Timer : Type*}

/-! ## Well-formed wheels -/

/-- A queue of `level`: a bucket for every digit, with links to finer levels. -/
structure WellFormedQueue (radix level : ℕ) (queue : List (Bucket Timer)) :
    Prop where
  length_eq : queue.length = radix
  descends : ∀ bucket ∈ queue, ∀ link ∈ bucket, link.Descends radix level

/-- What `new` establishes for a span that fits `u64`, and every call keeps. -/
structure WellFormed (wheel : TimingWheel Timer) : Prop where
  radix_le : wheel.radix ≤ 65536
  span_le : wheel.radix ^ wheel.levels.length ≤ u64Max
  queues : ∀ (level : ℕ) (queue : List (Bucket Timer)),
    wheel.levels[level]? = some queue → WellFormedQueue wheel.radix level queue

/-- The routes the wheel holds, with the ticks they are due at. -/
def routes (wheel : TimingWheel Timer) : Multiset (ℕ × Timer) :=
  levelsRoutes wheel.radix (nextRotation wheel.radix wheel.ticks) 0 wheel.levels

section Periods

variable {wheel : TimingWheel Timer}

theorem radix_pos (wheel : TimingWheel Timer) : 0 < wheel.radix :=
  Nat.zero_lt_of_lt wheel.radix_gt

theorem pow_pos (wheel : TimingWheel Timer) (level : ℕ) :
    0 < wheel.radix ^ level :=
  Nat.pow_pos wheel.radix_pos

theorem WellFormed.pow_le (hwheel : wheel.WellFormed) {level : ℕ}
    (hlevel : level ≤ wheel.levels.length) :
    wheel.radix ^ level ≤ u64Max :=
  (Nat.pow_le_pow_right wheel.radix_pos hlevel).trans hwheel.span_le

theorem WellFormed.period_eq (hwheel : wheel.WellFormed) {level : ℕ}
    (hlevel : level ≤ wheel.levels.length) :
    wheel.period level = wheel.radix ^ level :=
  satPow_of_le (hwheel.pow_le hlevel)

theorem WellFormed.levels_lt (hwheel : wheel.WellFormed) :
    wheel.levels.length < 64 := by
  have htwo : 2 ^ wheel.levels.length ≤ wheel.radix ^ wheel.levels.length :=
    Nat.pow_le_pow_left wheel.radix_gt _
  have hlt : 2 ^ wheel.levels.length < 2 ^ 64 :=
    lt_of_le_of_lt (htwo.trans hwheel.span_le) (by decide)
  exact (Nat.pow_lt_pow_iff_right (by decide)).mp hlt

/-- The widest radix at which a wheel of each number of levels spans a word. -/
private def widestRadix : List ℕ :=
  [0, 0, 0, 0, 65535, 7131, 1625, 565, 255, 138, 84, 56, 40, 30, 23, 19, 15, 13,
    11, 10, 9, 8, 7, 6, 6, 5, 5, 5, 4, 4, 4, 4, 3, 3, 3, 3, 3, 3, 3, 3, 3, 2, 2,
    2, 2, 2, 2, 2, 2, 2, 2, 2, 2, 2, 2, 2, 2, 2, 2, 2, 2, 2, 2, 2]

private theorem widestRadix_room :
    ∀ levels < 64, 4 ≤ levels →
      2 ^ 64 ≤ (widestRadix.getD levels 0 + 1) ^ levels ∧
        (widestRadix.getD levels 0 + 1) *
          widestRadix.getD levels 0 ^ (levels - 1) ≤ 2 ^ 64 := by
  decide +kernel

/-- One more revolution of the coarsest level still fits a word, so a rotation
past the end of the clock is never mistaken for one in reach. -/
theorem WellFormed.revolution_le (hwheel : wheel.WellFormed) {level : ℕ}
    (hlevel : level < wheel.levels.length) :
    (wheel.radix + 1) * wheel.radix ^ level ≤ 2 ^ 64 := by
  have htop : (wheel.radix + 1) * wheel.radix ^ level ≤
      (wheel.radix + 1) * wheel.radix ^ (wheel.levels.length - 1) :=
    Nat.mul_le_mul_left _
      (Nat.pow_le_pow_right wheel.radix_pos (Nat.le_sub_one_of_lt hlevel))
  refine htop.trans ?_
  by_cases hfew : wheel.levels.length < 4
  · calc
      (wheel.radix + 1) * wheel.radix ^ (wheel.levels.length - 1) ≤
          65537 * 65536 ^ 2 :=
        Nat.mul_le_mul (Nat.add_le_add_right hwheel.radix_le 1)
          ((Nat.pow_le_pow_left hwheel.radix_le _).trans
            (Nat.pow_le_pow_right (by decide) (by omega)))
      _ ≤ 2 ^ 64 := by decide
  · obtain ⟨hwide, hroom⟩ := widestRadix_room _ hwheel.levels_lt (by omega)
    have hpow : wheel.radix ^ wheel.levels.length <
        (widestRadix.getD wheel.levels.length 0 + 1) ^ wheel.levels.length :=
      lt_of_lt_of_le (Nat.lt_succ_of_le hwheel.span_le) hwide
    have hradix : wheel.radix ≤ widestRadix.getD wheel.levels.length 0 :=
      Nat.le_of_lt_succ (lt_of_pow_lt_pow_left' _ hpow)
    exact (Nat.mul_le_mul (Nat.add_le_add_right hradix 1)
      (Nat.pow_le_pow_left hradix _)).trans hroom

end Periods

/-! ## Rotation boundaries -/

section Rotations

variable {radix : ℕ}

theorem lt_nextRotation (hradix : 0 < radix) (ticks level : ℕ) :
    ticks < nextRotation radix ticks level := by
  rw [nextRotation, mul_comm]
  exact Nat.lt_mul_div_succ ticks (Nat.pow_pos hradix)

theorem nextRotation_le (ticks level : ℕ) :
    nextRotation radix ticks level ≤ ticks + radix ^ level := by
  rw [nextRotation, Nat.add_mul, one_mul]
  exact Nat.add_le_add_right (Nat.div_mul_le_self _ _) _

theorem nextRotation_of_dvd {ticks level : ℕ} (hdvd : radix ^ level ∣ ticks) :
    nextRotation radix ticks level = ticks + radix ^ level := by
  rw [nextRotation, Nat.add_mul, one_mul, Nat.div_mul_cancel hdvd]

/-- Between two ticks only the levels that turn over at the second have another
next rotation. -/
theorem nextRotation_eq_succ (ticks level : ℕ) :
    nextRotation radix ticks level =
      if radix ^ level ∣ ticks + 1 then ticks + 1
      else nextRotation radix (ticks + 1) level := by
  rw [nextRotation, nextRotation, Nat.succ_div]
  split
  · rename_i hdvd
    have hdiv : (ticks + 1) / radix ^ level = ticks / radix ^ level + 1 := by
      rw [Nat.succ_div, if_pos hdvd]
    rw [← hdiv, Nat.div_mul_cancel hdvd]
  · rfl

theorem nextRotation_zero (ticks : ℕ) :
    nextRotation radix ticks 0 = ticks + 1 := by
  rw [nextRotation, pow_zero, Nat.div_one, mul_one]

end Rotations

/-! ## Legs -/

section Legs

variable {wheel : TimingWheel Timer}

/-- The entry legs of the source, without its wrap at the end of the clock. -/
theorem WellFormed.entryLeg_eq (hwheel : wheel.WellFormed) {level target : ℕ}
    (hlevel : level < wheel.levels.length) (hlater : wheel.ticks < target)
    (htarget : target < 2 ^ 64) :
    wheel.entryLeg level target =
      if target < nextRotation wheel.radix wheel.ticks level then none
      else
        let ahead := target - nextRotation wheel.radix wheel.ticks level
        if ahead / wheel.radix ^ level < wheel.radix then
          some (level, ahead / wheel.radix ^ level, ahead % wheel.radix ^ level)
        else none := by
  have hpos := wheel.pow_pos level
  have hnext : wheel.ticks - wheel.ticks % wheel.radix ^ level +
      wheel.radix ^ level = nextRotation wheel.radix wheel.ticks level := by
    rw [nextRotation, Nat.add_mul, one_mul, mul_comm,
      ← Nat.sub_eq_of_eq_add' (Nat.mod_add_div _ _).symm]
  rw [entryLeg, hwheel.period_eq hlevel.le]
  simp only [wrapAdd, hnext]
  have hle : nextRotation wheel.radix wheel.ticks level ≤
      wheel.ticks + wheel.radix ^ level := nextRotation_le wheel.ticks level
  have hroom := hwheel.revolution_le hlevel
  rw [Nat.add_mul, one_mul] at hroom
  by_cases hwrap : nextRotation wheel.radix wheel.ticks level < 2 ^ 64
  · rw [Nat.mod_eq_of_lt (by simpa using hwrap)]
  · -- The wrapped boundary is small, and the bucket it gives is out of reach.
    have hpow := hwheel.pow_le hlevel.le
    have hword : u64Max + 1 = 2 ^ 64 := rfl
    have hwrapped : nextRotation wheel.radix wheel.ticks level % (u64Max + 1) =
        nextRotation wheel.radix wheel.ticks level - 2 ^ 64 := by
      rw [hword, Nat.mod_eq_sub_mod (by omega), Nat.mod_eq_of_lt (by omega)]
    have hfar : ¬(target - (nextRotation wheel.radix wheel.ticks level - 2 ^ 64)) /
        wheel.radix ^ level < wheel.radix := by
      rw [Nat.div_lt_iff_lt_mul hpos]
      omega
    rw [hwrapped, if_neg (by omega), if_neg hfar, if_pos (by omega)]

/-- Among the first `count` levels, one takes every target within a revolution of
the coarsest. -/
theorem WellFormed.entry_found (hwheel : wheel.WellFormed) {target : ℕ}
    (hlater : wheel.ticks < target) (htarget : target < 2 ^ 64) {count : ℕ}
    (hcount : count + 1 ≤ wheel.levels.length)
    (hreach : target < nextRotation wheel.radix wheel.ticks count +
      wheel.radix ^ (count + 1)) :
    ∃ level slot remaining,
      (List.range (count + 1)).reverse.findSome? (wheel.entryLeg · target) =
          some (level, slot, remaining) ∧
        level < wheel.levels.length ∧ slot < wheel.radix ∧
        remaining < wheel.radix ^ level ∧
        nextRotation wheel.radix wheel.ticks level +
          slot * wheel.radix ^ level + remaining = target := by
  induction count with
  | zero =>
      have hzero : nextRotation wheel.radix wheel.ticks 0 = wheel.ticks + 1 :=
        nextRotation_zero wheel.ticks
      rw [hzero, zero_add, pow_one] at hreach
      refine ⟨0, target - (wheel.ticks + 1), 0, ?_, hcount, by omega, by simp, by
        rw [hzero, pow_zero]
        omega⟩
      have hentry := hwheel.entryLeg_eq hcount hlater htarget
      rw [hzero, if_neg (by omega)] at hentry
      simp only [pow_zero, Nat.div_one, Nat.mod_one] at hentry
      rw [if_pos (by omega)] at hentry
      simp [List.range_succ, hentry]
  | succ count ih =>
      have hentry := hwheel.entryLeg_eq hcount hlater htarget
      have hpos := wheel.pow_pos (count + 1)
      rw [List.range_succ, List.reverse_append, List.reverse_singleton,
        List.singleton_append, List.findSome?_cons, hentry]
      by_cases hbefore :
          target < nextRotation wheel.radix wheel.ticks (count + 1)
      · rw [if_pos hbefore]
        apply ih (by omega)
        calc
          target < nextRotation wheel.radix wheel.ticks (count + 1) := hbefore
          _ ≤ wheel.ticks + wheel.radix ^ (count + 1) := nextRotation_le _ _
          _ ≤ nextRotation wheel.radix wheel.ticks count +
              wheel.radix ^ (count + 1) :=
            Nat.add_le_add_right
              (lt_nextRotation wheel.radix_pos _ _).le _
      · have hslot : (target - nextRotation wheel.radix wheel.ticks (count + 1)) /
            wheel.radix ^ (count + 1) < wheel.radix := by
          rw [Nat.div_lt_iff_lt_mul hpos, mul_comm, ← pow_succ]
          omega
        have hdigits := Nat.div_add_mod'
          (target - nextRotation wheel.radix wheel.ticks (count + 1))
          (wheel.radix ^ (count + 1))
        simp only [if_neg hbefore, if_pos hslot]
        exact ⟨_, _, _, rfl, hcount, hslot, Nat.mod_lt _ hpos, by omega⟩

theorem WellFormed.nextLeg_found (hwheel : wheel.WellFormed) {remaining : ℕ}
    (hpos : 0 < remaining) {count : ℕ} (hcount : count ≤ wheel.levels.length)
    (hreach : remaining < wheel.radix ^ count) :
    ∃ level, (List.range count).reverse.find? (wheel.period · ≤ remaining) =
        some level ∧
      level < count ∧ wheel.radix ^ level ≤ remaining ∧
      remaining < wheel.radix ^ (level + 1) := by
  induction count with
  | zero =>
      rw [pow_zero] at hreach
      omega
  | succ count ih =>
      rw [List.range_succ, List.reverse_append, List.reverse_singleton,
        List.singleton_append, List.find?_cons,
        hwheel.period_eq (Nat.le_of_lt hcount)]
      by_cases hfits : wheel.radix ^ count ≤ remaining
      · exact ⟨count, by simp [hfits], Nat.lt_succ_self _, hfits, hreach⟩
      · obtain ⟨level, hfind, hlevel, hdigits⟩ :=
          ih (Nat.le_of_lt hcount) (Nat.lt_of_not_le hfits)
        exact ⟨level, by simpa [hfits] using hfind, by omega, hdigits⟩

/-- The legs built for a remaining delay go to ever finer levels and wait that
long in all. -/
theorem WellFormed.route_spec (hwheel : wheel.WellFormed) (timer : Timer)
    {fuel bound remaining : ℕ} (hfuel : bound ≤ fuel)
    (hbound : bound ≤ wheel.levels.length) (hpos : 0 < remaining)
    (hreach : remaining < wheel.radix ^ bound) :
    (wheel.route (.deliver timer) fuel remaining).Descends wheel.radix bound ∧
      (wheel.route (.deliver timer) fuel remaining).delay wheel.radix =
        remaining ∧
      (wheel.route (.deliver timer) fuel remaining).timer = timer := by
  induction fuel generalizing bound remaining with
  | zero =>
      obtain rfl : bound = 0 := Nat.le_zero.mp hfuel
      rw [pow_zero] at hreach
      omega
  | succ fuel ih =>
      obtain ⟨level, hfind, hlevel, hlow, hhigh⟩ :=
        hwheel.nextLeg_found hpos le_rfl
          (hreach.trans_le (Nat.pow_le_pow_right wheel.radix_pos hbound))
      have hperiod := wheel.pow_pos level
      have hfiner : level < bound :=
        (Nat.pow_lt_pow_iff_right wheel.radix_gt).mp (hlow.trans_lt hreach)
      have hdigit : 0 < remaining / wheel.radix ^ level :=
        Nat.div_pos hlow hperiod
      have hdigit_lt : remaining / wheel.radix ^ level < wheel.radix := by
        rw [Nat.div_lt_iff_lt_mul hperiod, mul_comm, ← pow_succ]
        exact hhigh
      have hleg : wheel.nextLeg remaining =
          (level, remaining / wheel.radix ^ level - 1,
            remaining % wheel.radix ^ level) := by
        simp only [nextLeg, hfind, Option.getD_some,
          hwheel.period_eq (Nat.le_of_lt hlevel)]
      have hlevels := hwheel.levels_lt
      have hradix := hwheel.radix_le
      have hlevelByte : level % 2 ^ 8 = level := Nat.mod_eq_of_lt (by omega)
      have hslotWord : (remaining / wheel.radix ^ level - 1) % 2 ^ 16 =
          remaining / wheel.radix ^ level - 1 := Nat.mod_eq_of_lt (by omega)
      have hdigits := Nat.div_add_mod' remaining (wheel.radix ^ level)
      rw [route, hleg]
      simp only [hlevelByte, hslotWord]
      by_cases hrest : remaining % wheel.radix ^ level = 0
      · rw [if_pos hrest]
        refine ⟨⟨hfiner, by omega, trivial⟩, ?_, rfl⟩
        rw [Link.delay, Link.delay, Nat.sub_add_cancel hdigit]
        omega
      · rw [if_neg hrest]
        have hbelow : level ≤ fuel := by omega
        obtain ⟨hdescends, hdelay, htimer⟩ := ih hbelow
          (Nat.le_of_lt hlevel) (Nat.pos_of_ne_zero hrest)
          (Nat.mod_lt _ hperiod)
        refine ⟨⟨hfiner, by omega, hdescends⟩, ?_, htimer⟩
        rw [Link.delay, hdelay, Nat.sub_add_cancel hdigit]
        omega

end Legs

/-! ## Filing and draining -/

/-- Nothing but the buckets' contents changed. -/
structure SameShape (wheel wheel' : TimingWheel Timer) : Prop where
  ticks_eq : wheel'.ticks = wheel.ticks
  radix_eq : wheel'.radix = wheel.radix
  length_eq : wheel'.levels.length = wheel.levels.length

theorem SameShape.trans {wheel wheel' wheel'' : TimingWheel Timer}
    (hfirst : SameShape wheel wheel') (hsecond : SameShape wheel' wheel'') :
    SameShape wheel wheel'' :=
  ⟨hsecond.ticks_eq.trans hfirst.ticks_eq,
    hsecond.radix_eq.trans hfirst.radix_eq,
    hsecond.length_eq.trans hfirst.length_eq⟩

section Filing

variable {wheel : TimingWheel Timer}

theorem WellFormed.modify (hwheel : wheel.WellFormed) {index : ℕ}
    {change : List (Bucket Timer) → List (Bucket Timer)}
    (hchange : ∀ queue, WellFormedQueue wheel.radix index queue →
      WellFormedQueue wheel.radix index (change queue)) :
    WellFormed { wheel with levels := wheel.levels.modify index change } where
  radix_le := hwheel.radix_le
  span_le := by simpa using hwheel.span_le
  queues level queue hqueue := by
    rw [List.getElem?_modify] at hqueue
    obtain ⟨before, hbefore, rfl⟩ := Option.map_eq_some_iff.mp hqueue
    split
    · subst level
      exact hchange before (hwheel.queues index before hbefore)
    · exact hwheel.queues level before hbefore

theorem WellFormedQueue.file {radix level slot : ℕ}
    {queue : List (Bucket Timer)} {link : Link Timer}
    (hqueue : WellFormedQueue radix level queue)
    (hlink : link.Descends radix level) :
    WellFormedQueue radix level (queue.modify slot (· ++ [link])) where
  length_eq := by simpa using hqueue.length_eq
  descends bucket hbucket other hother := by
    obtain ⟨index, hindex⟩ := List.mem_iff_getElem?.mp hbucket
    rw [List.getElem?_modify] at hindex
    obtain ⟨before, hbefore, rfl⟩ := Option.map_eq_some_iff.mp hindex
    have hmem := List.mem_iff_getElem?.mpr ⟨index, hbefore⟩
    split at hother
    · rcases List.mem_append.mp hother with hold | hnew
      · exact hqueue.descends before hmem other hold
      · rw [List.mem_singleton.mp hnew]
        exact hlink
    · exact hqueue.descends before hmem other hother

theorem WellFormedQueue.turn {radix level : ℕ} {bucket : Bucket Timer}
    {queue : List (Bucket Timer)}
    (hqueue : WellFormedQueue radix level (bucket :: queue)) :
    WellFormedQueue radix level (queue ++ [[]]) where
  length_eq := by simpa using hqueue.length_eq
  descends other hother link hlink := by
    rcases List.mem_append.mp hother with hold | hnew
    · exact hqueue.descends other (List.mem_cons_of_mem _ hold) link hlink
    · rw [List.mem_singleton.mp hnew] at hlink
      cases hlink

/-- What filing a link in an existing bucket does. -/
structure Filed (wheel : TimingWheel Timer) (level slot : ℕ) (link : Link Timer)
    (filed : TimingWheel Timer × List Timer) : Prop where
  wellFormed : filed.1.WellFormed
  shape : SameShape wheel filed.1
  dropped : filed.2 = []
  routes : ∀ next : ℕ → ℕ,
    levelsRoutes wheel.radix next 0 filed.1.levels =
      (next level + slot * wheel.radix ^ level + link.delay wheel.radix,
          link.timer) ::ₘ
        levelsRoutes wheel.radix next 0 wheel.levels

theorem WellFormed.filed (hwheel : wheel.WellFormed) {level slot : ℕ}
    {link : Link Timer} (hlevel : level < wheel.levels.length)
    (hslot : slot < wheel.radix) (hlink : link.Descends wheel.radix level) :
    Filed wheel level slot link (wheel.file level slot link) := by
  have hqueue : wheel.levels[level]? = some wheel.levels[level] :=
    List.getElem?_eq_getElem hlevel
  have hlength := (hwheel.queues level _ hqueue).length_eq
  have hfile : wheel.file level slot link =
      ({ wheel with
          levels := wheel.levels.modify level (·.modify slot (· ++ [link])) },
        []) := by
    rw [file, hqueue, Option.getD_some, if_pos (hlength ▸ hslot)]
  rw [hfile]
  refine ⟨hwheel.modify fun queue hold => hold.file hlink,
    ⟨rfl, rfl, List.length_modify ..⟩, rfl, fun next => ?_⟩
  have hmodify := @levelsRoutes_modify _ wheel.radix next next 0
    (·.modify slot (· ++ [link])) _ _ _ hqueue fun _ _ => rfl
  rw [zero_add, queueRoutes_modify (hlength ▸ hslot), Multiset.add_cons,
    ← Multiset.cons_add] at hmodify
  exact add_right_cancel hmodify

/-- Draining releases the timers of the last legs and files the others, which
wait on. -/
theorem WellFormed.drained {wheel : TimingWheel Timer}
    (hwheel : wheel.WellFormed) {bucket : Bucket Timer} {level : ℕ}
    (next : ℕ → ℕ) (hlevel : level < wheel.levels.length)
    (hnext : ∀ finer < level, next finer = wheel.ticks + wheel.radix ^ finer)
    (hbucket : ∀ link ∈ bucket, link.Descends wheel.radix level) :
    (drain bucket wheel).1.WellFormed ∧
      SameShape wheel (drain bucket wheel).1 ∧
      ((drain bucket wheel).2.map (Prod.mk wheel.ticks) :
          Multiset (ℕ × Timer)) +
          levelsRoutes wheel.radix next 0 (drain bucket wheel).1.levels =
        bucketRoutes wheel.radix wheel.ticks bucket +
          levelsRoutes wheel.radix next 0 wheel.levels := by
  induction bucket generalizing wheel with
  | nil => exact ⟨hwheel, ⟨rfl, rfl, rfl⟩, rfl⟩
  | cons link rest ih =>
      have hrest : ∀ link ∈ rest, link.Descends wheel.radix level :=
        fun link hmem => hbucket link (List.mem_cons_of_mem _ hmem)
      cases link with
      | deliver timer =>
          obtain ⟨hdrained, hshape, hroutes⟩ := ih hwheel hlevel hnext hrest
          refine ⟨hdrained, hshape, ?_⟩
          rw [drain, List.map_cons, ← Multiset.cons_coe, Multiset.cons_add,
            hroutes, ← Multiset.cons_add]
          rfl
      | relay finer slot inner =>
          obtain ⟨hfiner, hslot, hinner⟩ :=
            hbucket (.relay finer slot inner) List.mem_cons_self
          have hfiled := hwheel.filed (hfiner.trans hlevel) hslot hinner
          have hshape := hfiled.shape
          obtain ⟨hdrained, hshape', hroutes⟩ := ih hfiled.wellFormed
            (by rwa [hshape.length_eq])
            (by rwa [hshape.ticks_eq, hshape.radix_eq])
            (by rwa [hshape.radix_eq])
          rw [hshape.ticks_eq, hshape.radix_eq, hfiled.routes,
            hnext finer hfiner] at hroutes
          have hdue : wheel.ticks + wheel.radix ^ finer +
              slot * wheel.radix ^ finer + inner.delay wheel.radix =
                wheel.ticks +
                  (Link.relay finer slot inner).delay wheel.radix := by
            rw [Link.delay]
            ring
          refine ⟨hdrained, hshape.trans hshape', ?_⟩
          rw [drain]
          simp only [hfiled.dropped, List.nil_append]
          rw [hroutes, hdue, Multiset.add_cons, ← Multiset.cons_add]
          rfl

end Filing

/-! ## Ticking -/

section Ticking

variable {wheel : TimingWheel Timer}

/-- The next rotations in the middle of a tick, when the levels below `turned`
have turned over. -/
def midRotation (radix ticks turned level : ℕ) : ℕ :=
  if level < turned then nextRotation radix ticks level
  else nextRotation radix (ticks - 1) level

theorem midRotation_of_lt {radix ticks turned level : ℕ} (hlt : level < turned) :
    midRotation radix ticks turned level = nextRotation radix ticks level :=
  if_pos hlt

theorem midRotation_of_le {radix ticks turned level : ℕ} (hle : turned ≤ level) :
    midRotation radix ticks turned level =
      nextRotation radix (ticks - 1) level :=
  if_neg (Nat.not_lt_of_le hle)

theorem midRotation_of_dvd {radix ticks level : ℕ} (hticks : 0 < ticks)
    (hdvd : radix ^ level ∣ ticks) :
    midRotation radix ticks level level = ticks := by
  rw [midRotation_of_le le_rfl, nextRotation_eq_succ,
    Nat.sub_add_cancel hticks, if_pos hdvd]

/-- A level that does not turn over keeps its next rotation, and so do all
coarser ones. -/
theorem midRotation_of_not_dvd {radix ticks turned : ℕ} (hticks : 0 < ticks)
    (hdvd : ¬radix ^ turned ∣ ticks) (level : ℕ) :
    midRotation radix ticks turned level = nextRotation radix ticks level := by
  by_cases hlt : level < turned
  · exact midRotation_of_lt hlt
  · have hcoarser : ¬radix ^ level ∣ ticks := fun hlevel =>
      hdvd ((pow_dvd_pow radix (Nat.le_of_not_lt hlt)).trans hlevel)
    rw [midRotation_of_le (Nat.le_of_not_lt hlt), nextRotation_eq_succ,
      Nat.sub_add_cancel hticks, if_neg hcoarser]

theorem WellFormed.rotated (hwheel : wheel.WellFormed) {level : ℕ}
    (hlevel : level < wheel.levels.length) (hticks : 0 < wheel.ticks)
    (hdvd : wheel.radix ^ level ∣ wheel.ticks) :
    (wheel.rotate level).2.WellFormed ∧
      SameShape wheel (wheel.rotate level).2 ∧
      (∀ link ∈ (wheel.rotate level).1, link.Descends wheel.radix level) ∧
      bucketRoutes wheel.radix wheel.ticks (wheel.rotate level).1 +
          levelsRoutes wheel.radix
            (midRotation wheel.radix wheel.ticks (level + 1)) 0
            (wheel.rotate level).2.levels =
        levelsRoutes wheel.radix
          (midRotation wheel.radix wheel.ticks level) 0 wheel.levels := by
  have hqueue : wheel.levels[level]? = some wheel.levels[level] :=
    List.getElem?_eq_getElem hlevel
  have hwell := hwheel.queues level _ hqueue
  cases hbuckets : wheel.levels[level] with
  | nil =>
      rw [hbuckets] at hwell
      exact absurd hwell.length_eq (Nat.ne_of_lt wheel.radix_pos)
  | cons bucket queue =>
      rw [hbuckets] at hqueue hwell
      have hbucket : (wheel.rotate level).1 = bucket := by
        rw [rotate, hqueue]
        rfl
      have hturn : (wheel.rotate level).2 =
          { wheel with
            levels := wheel.levels.modify level fun queue =>
              queue.tail ++ [[]] } := rfl
      refine ⟨?_, ⟨rfl, rfl, List.length_modify ..⟩, ?_, ?_⟩
      · rw [hturn]
        apply hwheel.modify
        intro before hbefore
        cases before with
        | nil => exact absurd hbefore.length_eq (Nat.ne_of_lt wheel.radix_pos)
        | cons front before => exact hbefore.turn
      · rw [hbucket]
        exact hwell.descends bucket List.mem_cons_self
      · have hmodify := @levelsRoutes_modify _ wheel.radix
          (midRotation wheel.radix wheel.ticks level)
          (midRotation wheel.radix wheel.ticks (level + 1)) 0
          (fun queue => queue.tail ++ [[]]) _ _ _ hqueue (by
            intro other hother
            rw [zero_add] at hother
            rw [midRotation, midRotation]
            split <;> split <;> first | rfl | omega)
        rw [zero_add, midRotation_of_dvd hticks hdvd,
          midRotation_of_lt (Nat.lt_succ_self level), nextRotation_of_dvd hdvd,
          List.tail_cons, queueRoutes_append_empty, queueRoutes, ← add_assoc]
          at hmodify
        rw [hbucket, hturn, add_comm]
        exact add_right_cancel hmodify

/-- The levels that turn over release what is due now and keep the rest. -/
theorem WellFormed.tickedLevels {wheel : TimingWheel Timer}
    (hwheel : wheel.WellFormed) (hticks : 0 < wheel.ticks) {level count : ℕ}
    (hcount : level + count = wheel.levels.length)
    (hdvd : ∀ finer < level, wheel.radix ^ finer ∣ wheel.ticks) :
    (tickLevels level count wheel).1.WellFormed ∧
      SameShape wheel (tickLevels level count wheel).1 ∧
      ((tickLevels level count wheel).2.map (Prod.mk wheel.ticks) :
          Multiset (ℕ × Timer)) + (tickLevels level count wheel).1.routes =
        levelsRoutes wheel.radix (midRotation wheel.radix wheel.ticks level) 0
          wheel.levels := by
  induction count generalizing level wheel with
  | zero =>
      refine ⟨hwheel, ⟨rfl, rfl, rfl⟩, ?_⟩
      rw [tickLevels, routes, List.map_nil, Multiset.coe_nil, zero_add]
      refine (levelsRoutes_congr fun other _ hother => ?_).symm
      rw [zero_add] at hother
      exact midRotation_of_lt (hother.trans_eq hcount.symm)
  | succ count ih =>
      have hlevel : level < wheel.levels.length := by omega
      rw [tickLevels, hwheel.period_eq hlevel.le]
      by_cases hturns : wheel.radix ^ level ∣ wheel.ticks
      · obtain ⟨hrotated, hshapeRotated, hbucket, hroutesRotated⟩ :=
          hwheel.rotated hlevel hticks hturns
        have hfiner : ∀ finer < level + 1, wheel.radix ^ finer ∣ wheel.ticks :=
          fun finer hfiner => (pow_dvd_pow _ (by omega)).trans hturns
        obtain ⟨hdrained, hshapeDrained, hroutesDrained⟩ :=
          hrotated.drained
            (midRotation wheel.radix wheel.ticks (level + 1))
            (by rwa [hshapeRotated.length_eq])
            (by
              intro finer hlt
              rw [midRotation_of_lt (by omega),
                nextRotation_of_dvd (hfiner finer (by omega)),
                hshapeRotated.ticks_eq, hshapeRotated.radix_eq])
            (by rwa [hshapeRotated.radix_eq])
        have hshape := hshapeRotated.trans hshapeDrained
        obtain ⟨hticked, hshapeTicked, hroutesTicked⟩ :=
          ih hdrained (by rwa [hshape.ticks_eq])
            (by
              rw [hshape.length_eq, ← hcount]
              exact Nat.succ_add_eq_add_succ level count)
            (by rwa [hshape.ticks_eq, hshape.radix_eq])
        rw [hshape.ticks_eq, hshape.radix_eq] at hroutesTicked
        rw [hshapeRotated.ticks_eq, hshapeRotated.radix_eq] at hroutesDrained
        have hzero : ¬wheel.ticks % wheel.radix ^ level ≠ 0 :=
          not_not_intro (Nat.mod_eq_zero_of_dvd hturns)
        rw [if_neg hzero]
        refine ⟨hticked, hshape.trans hshapeTicked, ?_⟩
        simp only [List.map_append]
        rw [← Multiset.coe_add, add_assoc, hroutesTicked, hroutesDrained,
          hroutesRotated]
      · have hnonzero : wheel.ticks % wheel.radix ^ level ≠ 0 := fun hmod =>
          hturns (Nat.dvd_of_mod_eq_zero hmod)
        rw [if_pos hnonzero]
        refine ⟨hwheel, ⟨rfl, rfl, rfl⟩, ?_⟩
        rw [routes, List.map_nil, Multiset.coe_nil, zero_add]
        exact (levelsRoutes_congr fun other _ _ =>
          midRotation_of_not_dvd hticks hturns other).symm

/-- A tick takes off routes due at it. -/
theorem WellFormed.ticked (hwheel : wheel.WellFormed)
    (hticks : wheel.ticks + 1 < 2 ^ 64) :
    wheel.tick.1.WellFormed ∧ wheel.tick.1.ticks = wheel.ticks + 1 ∧
      wheel.tick.1.radix = wheel.radix ∧
      wheel.tick.1.levels.length = wheel.levels.length ∧
      (wheel.tick.2.map (Prod.mk (wheel.ticks + 1)) : Multiset (ℕ × Timer)) +
          wheel.tick.1.routes = wheel.routes := by
  have hclock : wrapAdd u64Max wheel.ticks 1 = wheel.ticks + 1 :=
    wrapAdd_of_le (Nat.le_pred_of_lt hticks)
  have hadvanced : WellFormed { wheel with ticks := wheel.ticks + 1 } :=
    ⟨hwheel.radix_le, hwheel.span_le, hwheel.queues⟩
  obtain ⟨hticked, hshape, hroutes⟩ :=
    hadvanced.tickedLevels (Nat.succ_pos _) (zero_add wheel.levels.length)
      (fun _ hlt => absurd hlt (Nat.not_lt_zero _))
  rw [tick, hclock]
  refine ⟨hticked, hshape.ticks_eq, hshape.radix_eq, hshape.length_eq, ?_⟩
  rw [hroutes, routes]
  exact levelsRoutes_congr fun other _ _ => midRotation_of_le (Nat.zero_le _)

/-- Every route the wheel holds is due after the current tick. -/
theorem lt_of_mem_routes {due : ℕ} {timer : Timer}
    (hmem : (due, timer) ∈ wheel.routes) : wheel.ticks < due := by
  have hqueue : ∀ (queue : List (Bucket Timer)) (period front : ℕ),
      (due, timer) ∈ queueRoutes wheel.radix period front queue →
        front ≤ due := by
    intro queue
    induction queue with
    | nil => exact fun _ _ hmem => absurd hmem (Multiset.notMem_zero _)
    | cons bucket queue ih =>
        intro period front hmem
        rcases Multiset.mem_add.mp hmem with hbucket | htail
        · obtain ⟨link, -, hlink⟩ := List.mem_map.mp hbucket
          have hdue := congrArg Prod.fst hlink
          simp only at hdue
          omega
        · exact (Nat.le_add_right front period).trans (ih _ _ htail)
  have hlevels : ∀ (levels : List (List (Bucket Timer))) (level : ℕ),
      (due, timer) ∈ levelsRoutes wheel.radix
          (nextRotation wheel.radix wheel.ticks) level levels →
        wheel.ticks < due := by
    intro levels
    induction levels with
    | nil => exact fun _ hmem => absurd hmem (Multiset.notMem_zero _)
    | cons queue levels ih =>
        intro level hmem
        rcases Multiset.mem_add.mp hmem with hfirst | htail
        · exact (lt_nextRotation wheel.radix_pos wheel.ticks level).trans_le
            (hqueue _ _ _ hfirst)
        · exact ih _ htail
  exact hlevels wheel.levels 0 hmem

end Ticking

/-! ## Scheduling -/

section Scheduling

variable {wheel : TimingWheel Timer}

/-- A delay in range adds the route due `delay` ticks from now. -/
theorem WellFormed.scheduled (hwheel : wheel.WellFormed) {delay : ℕ}
    (timer : Timer) (hlevels : 0 < wheel.levels.length) (hpos : 0 < delay)
    (hdelay : delay ≤ wheel.maxDelay) (hclock : wheel.ticks + delay < 2 ^ 64) :
    (wheel.schedule delay timer).1.WellFormed ∧
      SameShape wheel (wheel.schedule delay timer).1 ∧
      (wheel.schedule delay timer).2 = [] ∧
      (wheel.schedule delay timer).1.routes =
        (wheel.ticks + delay, timer) ::ₘ wheel.routes := by
  have hrange : ¬(delay = 0 ∨ wheel.maxDelay < delay) := by omega
  rw [maxDelay, hwheel.period_eq le_rfl] at hdelay
  obtain ⟨coarsest, hcoarsest⟩ : ∃ coarsest, wheel.levels.length = coarsest + 1 :=
    ⟨_, (Nat.succ_pred_eq_of_pos hlevels).symm⟩
  have hnext := lt_nextRotation wheel.radix_pos wheel.ticks coarsest
  rw [hcoarsest] at hdelay
  obtain ⟨level, slot, remaining, hfound, hlevel, hslot, hremaining, htarget⟩ :=
    hwheel.entry_found (Nat.lt_add_of_pos_right hpos) hclock
      hcoarsest.ge (by omega)
  have hwrap : wrapAdd u64Max wheel.ticks delay = wheel.ticks + delay :=
    wrapAdd_of_le (Nat.le_pred_of_lt hclock)
  have hroute : ∃ link : Link Timer,
      link = (if remaining = 0 then .deliver timer
        else wheel.route (.deliver timer) wheel.levels.length remaining) ∧
      link.Descends wheel.radix level ∧ link.delay wheel.radix = remaining ∧
      link.timer = timer := by
    refine ⟨_, rfl, ?_⟩
    by_cases hzero : remaining = 0
    · rw [if_pos hzero, hzero]
      exact ⟨trivial, rfl, rfl⟩
    · rw [if_neg hzero]
      exact hwheel.route_spec timer hlevel.le hlevel.le
        (Nat.pos_of_ne_zero hzero) hremaining
  obtain ⟨link, hlink, hdescends, hwaits, htimer⟩ := hroute
  have hfiled := hwheel.filed hlevel hslot hdescends
  rw [← hcoarsest] at hfound
  rw [schedule, if_neg hrange, hwrap, hfound]
  simp only
  rw [← hlink]
  refine ⟨hfiled.wellFormed, hfiled.shape, hfiled.dropped, ?_⟩
  rw [routes, routes, hfiled.shape.ticks_eq, hfiled.shape.radix_eq,
    hfiled.routes, hwaits, htarget, htimer]

end Scheduling

end TimingWheel

end PbMapper.Auth
