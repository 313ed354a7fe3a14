import PbMapper.Foundation.MachineWord
import Mathlib.Algebra.Order.Group.Multiset
import Mathlib.Data.Multiset.Filter
import Mathlib.Tactic.Ring

/-!
# The timing wheel

Rotating queues of buckets, one queue for every digit of a delay in base
`radix`.  A route is filed in one bucket at a time and moves to a finer level
when its bucket comes off.  Every link in the wheel is due at one tick, and the
multiset of these due ticks is all that scheduling and ticking change: a schedule
adds one, a tick releases those of the tick.
-/

namespace PbMapper.Auth

/-- One leg of a route.  Only the last one holds the timer. -/
inductive Link (Timer : Type*) where
  | deliver (timer : Timer)
  | relay (level slot : ℕ) (next : Link Timer)

/-- The timer at the end of a route. -/
def Link.timer {Timer : Type*} : Link Timer → Timer
  | .deliver timer => timer
  | .relay _ _ next => next.timer

abbrev Bucket (Timer : Type*) := List (Link Timer)

/-- The buckets of a level are indexed by their distance from the current
tick. -/
structure TimingWheel (Timer : Type*) where
  ticks : ℕ
  radix : ℕ
  radix_gt : 1 < radix
  levels : List (List (Bucket Timer))

open MachineWord

namespace TimingWheel

variable {Timer : Type*}

/-! ## Construction -/

/-- The loop of `new`.  A span of `u64` saturates after at most 64 levels. -/
def levelCount (maxDelay radix : ℕ) : ℕ → ℕ → ℕ → ℕ
  | 0, _, levels => levels
  | fuel + 1, span, levels =>
      if span < maxDelay then
        levelCount maxDelay radix fuel (satMul u64Max span radix) (levels + 1)
      else levels

def new (maxDelay radix : ℕ) (hradix : 1 < radix) : TimingWheel Timer where
  ticks := 0
  radix := radix
  radix_gt := hradix
  levels := List.replicate (levelCount maxDelay radix 64 radix 1)
    (List.replicate radix [])

variable (wheel : TimingWheel Timer)

/-- Ticks spanned by `level` and every level below it. -/
def period (level : ℕ) : ℕ := satPow u64Max wheel.radix level

/-- Longest delay this wheel can place exactly. -/
def maxDelay : ℕ := wheel.period wheel.levels.length

/-! ## Scheduling -/

/-- The route's first leg if it starts at `level`. -/
def entryLeg (level target : ℕ) : Option (ℕ × ℕ × ℕ) :=
  let period := wheel.period level
  let nextRotation :=
    wrapAdd u64Max (wheel.ticks - wheel.ticks % period) period
  if target < nextRotation then none
  else
    let ahead := target - nextRotation
    let slot := ahead / period
    if slot < wheel.radix then some (level, slot, ahead % period) else none

/-- The next leg for a timer due `remaining` ticks after a rotation boundary. -/
def nextLeg (remaining : ℕ) : ℕ × ℕ × ℕ :=
  let level := ((List.range wheel.levels.length).reverse.find?
    (wheel.period · ≤ remaining)).getD 0
  let period := wheel.period level
  (level, remaining / period - 1, remaining % period)

/-- The legs after the first; every leg is at a finer level than the one before,
so there are at most as many as levels. -/
def route (inner : Link Timer) : ℕ → ℕ → Link Timer
  | 0, _ => inner
  | fuel + 1, remaining =>
      let (level, slot, rest) := wheel.nextLeg remaining
      .relay (level % 2 ^ 8) (slot % 2 ^ 16)
        (if rest = 0 then inner else route inner fuel rest)

/-- Puts a link into a bucket; one for which there is no bucket is dropped. -/
def file (level slot : ℕ) (link : Link Timer) : TimingWheel Timer × List Timer :=
  if slot < (wheel.levels[level]?.getD []).length then
    ({ wheel with
        levels := wheel.levels.modify level (·.modify slot (· ++ [link])) },
      [])
  else (wheel, [link.timer])

/-- Holds `timer` for `delay` ticks.  The timers whose reference is dropped are
returned. -/
def schedule (delay : ℕ) (timer : Timer) : TimingWheel Timer × List Timer :=
  if delay = 0 ∨ wheel.maxDelay < delay then (wheel, [timer])
  else
    match (List.range wheel.levels.length).reverse.findSome?
        (wheel.entryLeg · (wrapAdd u64Max wheel.ticks delay)) with
    | none => (wheel, [timer])
    | some (level, slot, remaining) =>
        wheel.file level slot
          (if remaining = 0 then .deliver timer
            else wheel.route (.deliver timer) wheel.levels.length remaining)

/-! ## Ticking -/

/-- Takes the front bucket off and puts an empty one on the back. -/
def rotate (level : ℕ) : Bucket Timer × TimingWheel Timer :=
  ((wheel.levels[level]?.bind (·.head?)).getD [],
    { wheel with
      levels := wheel.levels.modify level fun queue => queue.tail ++ [[]] })

/-- The links of a bucket that came off: timers are released, and relayed routes
are filed. -/
def drain : Bucket Timer → TimingWheel Timer → TimingWheel Timer × List Timer
  | [], wheel => (wheel, [])
  | .deliver timer :: rest, wheel =>
      let (wheel, released) := drain rest wheel
      (wheel, timer :: released)
  | .relay level slot next :: rest, wheel =>
      let (wheel, dropped) := wheel.file level slot next
      let (wheel, released) := drain rest wheel
      (wheel, dropped ++ released)

/-- The loop of `tick` over `count` levels from `level` on. -/
def tickLevels : ℕ → ℕ → TimingWheel Timer → TimingWheel Timer × List Timer
  | _, 0, wheel => (wheel, [])
  | level, count + 1, wheel =>
      if wheel.ticks % wheel.period level ≠ 0 then (wheel, [])
      else
        let (bucket, wheel) := wheel.rotate level
        let (wheel, released) := drain bucket wheel
        let (wheel, later) := tickLevels (level + 1) count wheel
        (wheel, released ++ later)

def tick : TimingWheel Timer × List Timer :=
  tickLevels 0 wheel.levels.length
    { wheel with ticks := wrapAdd u64Max wheel.ticks 1 }

end TimingWheel

/-! ## What a link is due -/

namespace Link

variable {Timer : Type*} (radix : ℕ)

/-- The ticks a link still waits after its bucket came off. -/
def delay : Link Timer → ℕ
  | .deliver _ => 0
  | .relay level slot next => (slot + 1) * radix ^ level + next.delay

/-- The legs go to existing buckets of ever finer levels below `bound`. -/
def Descends : ℕ → Link Timer → Prop
  | _, .deliver _ => True
  | bound, .relay level slot next =>
      level < bound ∧ slot < radix ∧ next.Descends level

end Link

namespace TimingWheel

section Routes

variable {Timer : Type*} (radix : ℕ)

def bucketRoutes (due : ℕ) (bucket : Bucket Timer) : Multiset (ℕ × Timer) :=
  bucket.map fun link => (due + link.delay radix, link.timer)

/-- A queue whose front bucket comes off at `due`. -/
def queueRoutes (period : ℕ) : ℕ → List (Bucket Timer) → Multiset (ℕ × Timer)
  | _, [] => 0
  | due, bucket :: queue =>
      bucketRoutes radix due bucket + queueRoutes period (due + period) queue

/-- The queues from `level` on, where the front of the queue of level `i` comes
off at `next i`. -/
def levelsRoutes (next : ℕ → ℕ) :
    ℕ → List (List (Bucket Timer)) → Multiset (ℕ × Timer)
  | _, [] => 0
  | level, queue :: levels =>
      queueRoutes radix (radix ^ level) (next level) queue +
        levelsRoutes next (level + 1) levels

/-- The first tick after `ticks` at which a level turns over. -/
def nextRotation (ticks level : ℕ) : ℕ :=
  (ticks / radix ^ level + 1) * radix ^ level

variable {radix}

theorem queueRoutes_modify {period due slot : ℕ}
    {queue : List (Bucket Timer)} {link : Link Timer}
    (hslot : slot < queue.length) :
    queueRoutes radix period due (queue.modify slot (· ++ [link])) =
      (due + slot * period + link.delay radix, link.timer) ::ₘ
        queueRoutes radix period due queue := by
  induction queue generalizing due slot with
  | nil => cases hslot
  | cons bucket queue ih =>
      cases slot with
      | zero =>
          rw [List.modify_zero_cons, queueRoutes, queueRoutes, bucketRoutes,
            bucketRoutes, List.map_append, ← Multiset.coe_add, zero_mul,
            add_zero, ← Multiset.cons_add, List.map_singleton,
            Multiset.coe_singleton, Multiset.add_comm _ {_},
            Multiset.singleton_add]
      | succ slot =>
          have hdue : due + (slot + 1) * period = due + period + slot * period := by
            ring
          rw [List.modify_succ_cons, queueRoutes, queueRoutes,
            ih (Nat.lt_of_succ_lt_succ hslot), hdue, Multiset.add_cons]

theorem queueRoutes_append_empty {period due : ℕ}
    {queue : List (Bucket Timer)} :
    queueRoutes radix period due (queue ++ [[]]) =
      queueRoutes radix period due queue := by
  induction queue generalizing due with
  | nil => rfl
  | cons bucket queue ih => rw [List.cons_append, queueRoutes, queueRoutes, ih]

/-- Changing one level changes its routes only. -/
theorem levelsRoutes_modify (next next' : ℕ → ℕ) (level : ℕ)
    (change : List (Bucket Timer) → List (Bucket Timer)) {index : ℕ}
    {levels : List (List (Bucket Timer))} {queue : List (Bucket Timer)}
    (hindex : levels[index]? = some queue)
    (hnext : ∀ other, other ≠ level + index → next' other = next other) :
    levelsRoutes radix next' level (levels.modify index change) +
        queueRoutes radix (radix ^ (level + index)) (next (level + index))
          queue =
      levelsRoutes radix next level levels +
        queueRoutes radix (radix ^ (level + index)) (next' (level + index))
          (change queue) := by
  induction levels generalizing level index with
  | nil => cases hindex
  | cons head levels ih =>
      cases index with
      | zero =>
          obtain rfl : head = queue := Option.some.inj hindex
          have htail : ∀ above, level < above →
              levelsRoutes radix next' above levels =
                levelsRoutes radix next above levels := by
            clear ih hindex
            induction levels with
            | nil => exact fun _ _ => rfl
            | cons queue levels ih =>
                intro above habove
                rw [levelsRoutes, levelsRoutes, hnext above (by omega),
                  ih (above + 1) (by omega)]
          rw [List.modify_zero_cons, levelsRoutes, levelsRoutes, add_zero,
            htail (level + 1) (Nat.lt_succ_self _)]
          ac_rfl
      | succ index =>
          have hshift : level + (index + 1) = level + 1 + index := by omega
          rw [hshift] at hnext ⊢
          have hrest := ih (level + 1) (by simpa using hindex) hnext
          rw [List.modify_succ_cons, levelsRoutes, levelsRoutes,
            hnext level (by omega), add_assoc, hrest, ← add_assoc]

theorem levelsRoutes_congr {next next' : ℕ → ℕ} {level : ℕ}
    {levels : List (List (Bucket Timer))}
    (hnext : ∀ other, level ≤ other → other < level + levels.length →
      next' other = next other) :
    levelsRoutes radix next' level levels =
      levelsRoutes radix next level levels := by
  induction levels generalizing level with
  | nil => rfl
  | cons queue levels ih =>
      rw [List.length_cons] at hnext
      rw [levelsRoutes, levelsRoutes, hnext level le_rfl (by omega),
        ih fun other hle hlt => hnext other (by omega) (by omega)]

end Routes

end TimingWheel

end PbMapper.Auth
