import PbMapper.Auth.TimingRoutes
import PbMapper.Foundation.Transition
import Mathlib.Data.List.Nodup
import Mathlib.Order.Bounds.Basic
import Mathlib.Data.Finset.Max

/-!
# When timers run

A board is a timing wheel, the only holder of its timers, with the record of what
was asked of it: every route that was scheduled, every one that was released,
every timer fired early, and every callback that ran.
-/

namespace PbMapper.Auth

open MachineWord

/-- Calls of the wheel's owner. -/
inductive TimerCall (Timer : Type*) where
  | schedule (delay : ℕ) (timer : Timer)
  | tick
  | fire (timer : Timer)

/-- `agenda` has the tick each scheduled route is to be released at; `released`,
`fires` and `runs` have the ticks at which things happened. -/
structure TimerBoard (Timer : Type*) where
  wheel : TimingWheel Timer
  agenda : List (ℕ × Timer)
  released : List (ℕ × Timer)
  fires : List (ℕ × Timer)
  runs : List (ℕ × Timer)

variable {Timer : Type*} [DecidableEq Timer]

/-! ## Timers -/

/-- The timers the wheel holds a reference to. -/
def TimingWheel.timers (wheel : TimingWheel Timer) : List Timer :=
  wheel.levels.flatten.flatten.map Link.timer

/-- The entries of a log that are about `timer`. -/
def entriesOf (timer : Timer) (log : List (ℕ × Timer)) : List (ℕ × Timer) :=
  log.filter (·.2 = timer)

/-- The callback is taken when it runs, so it runs once. -/
def runCallback (tick : ℕ) (runs : List (ℕ × Timer)) (timer : Timer) :
    List (ℕ × Timer) :=
  if entriesOf timer runs = [] then runs ++ [(tick, timer)] else runs

/-- The timers whose last reference is among those dropped, one after the
other. -/
def lastReleased (held : List Timer) : List Timer → List Timer
  | [] => []
  | timer :: dropped =>
      if timer ∈ dropped ∨ timer ∈ held then lastReleased held dropped
      else timer :: lastReleased held dropped

namespace TimerBoard

variable (board : TimerBoard Timer)

def new (maxDelay radix : ℕ) (hradix : 1 < radix) : TimerBoard Timer :=
  ⟨.new maxDelay radix hradix, [], [], [], []⟩

/-- The tick at which a route scheduled now is to be released. -/
def dueTick (delay : ℕ) : ℕ :=
  if 0 < delay ∧ delay ≤ board.wheel.maxDelay then board.wheel.ticks + delay
  else board.wheel.ticks

/-- A timer can be reached while it is new, and then through the wheel. -/
def Alive (timer : Timer) : Prop :=
  entriesOf timer board.agenda = [] ∨ timer ∈ board.wheel.timers

instance (timer : Timer) : Decidable (board.Alive timer) :=
  inferInstanceAs (Decidable (_ ∨ _))

/-- Goes on with another wheel after a call that asked for `asked` and dropped
`dropped`. -/
def advance (asked : List (ℕ × Timer)) (wheel : TimingWheel Timer)
    (dropped : List Timer) : TimerBoard Timer where
  wheel := wheel
  agenda := board.agenda ++ asked
  released := board.released ++ dropped.map (Prod.mk wheel.ticks)
  fires := board.fires
  runs := (lastReleased wheel.timers dropped).foldl (runCallback wheel.ticks)
    board.runs

/-- Calls within the range of the clock. -/
def step (board : TimerBoard Timer) : TimerCall Timer → Option (TimerBoard Timer)
  | .schedule delay timer =>
      if board.Alive timer ∧ board.wheel.ticks + delay < 2 ^ 64 then
        let (wheel, dropped) := board.wheel.schedule delay timer
        some (board.advance [(board.dueTick delay, timer)] wheel dropped)
      else none
  | .tick =>
      if board.wheel.ticks + 1 < 2 ^ 64 then
        let (wheel, dropped) := board.wheel.tick
        some (board.advance [] wheel dropped)
      else none
  | .fire timer =>
      if board.Alive timer then
        some { board with
          fires := board.fires ++ [(board.wheel.ticks, timer)]
          runs := runCallback board.wheel.ticks board.runs timer }
      else none

/-- Every route is released at the tick asked for and at no other.  A timer that
was fired runs once, at the first call that fired it; any other runs once, at
the latest tick it was scheduled for. -/
structure Exact : Prop where
  released : (board.released : Multiset (ℕ × Timer)) =
    (board.agenda.filter (·.1 ≤ board.wheel.ticks) : Multiset (ℕ × Timer))
  fired : ∀ timer first, (entriesOf timer board.fires).head? = some first →
    entriesOf timer board.runs = [first]
  unfired : ∀ timer, entriesOf timer board.fires = [] →
    entriesOf timer board.agenda ≠ [] →
      ∃ latest, IsGreatest {due | (due, timer) ∈ board.agenda} latest ∧
        entriesOf timer board.runs =
          if latest ≤ board.wheel.ticks then [(latest, timer)] else []

end TimerBoard

/-- The boards of a wheel built by `new`. -/
def timerSystem (maxDelay radix : ℕ) (hradix : 1 < radix) :
    Transition.System (TimerBoard Timer) (TimerCall Timer) :=
  .ofPartial (· = .new maxDelay radix hradix) TimerBoard.step

/-! ## References -/

section References

theorem entriesOf_eq_nil {timer : Timer} {log : List (ℕ × Timer)} :
    entriesOf timer log = [] ↔ ∀ tick, (tick, timer) ∉ log := by
  rw [entriesOf, List.filter_eq_nil_iff]
  constructor
  · intro hnone tick hmem
    exact hnone _ hmem (decide_eq_true rfl)
  · rintro hnone ⟨tick, other⟩ hmem hother
    obtain rfl : other = timer := of_decide_eq_true hother
    exact hnone tick hmem

theorem entriesOf_append (timer : Timer) (log more : List (ℕ × Timer)) :
    entriesOf timer (log ++ more) = entriesOf timer log ++ entriesOf timer more :=
  List.filter_append _ _

theorem entriesOf_singleton_self (timer : Timer) (tick : ℕ) :
    entriesOf timer [(tick, timer)] = [(tick, timer)] := by
  simp [entriesOf]

theorem entriesOf_singleton_of_ne {timer other : Timer} (hne : other ≠ timer)
    (tick : ℕ) : entriesOf timer [(tick, other)] = [] := by
  simp [entriesOf, hne]

theorem mem_lastReleased {timer : Timer} {held dropped : List Timer} :
    timer ∈ lastReleased held dropped ↔ timer ∈ dropped ∧ timer ∉ held := by
  induction dropped with
  | nil => simp [lastReleased]
  | cons other dropped ih =>
      rw [lastReleased]
      split
      · grind
      · grind

/-- A callback runs the first time only. -/
theorem entriesOf_foldl_runCallback (tick : ℕ) (timer : Timer)
    (released : List Timer) (runs : List (ℕ × Timer)) :
    entriesOf timer (released.foldl (runCallback tick) runs) =
      if timer ∈ released ∧ entriesOf timer runs = [] then [(tick, timer)]
      else entriesOf timer runs := by
  induction released generalizing runs with
  | nil => simp
  | cons other released ih =>
      rw [List.foldl_cons, ih]
      by_cases hother : other = timer
      · subst hother
        by_cases hran : entriesOf other runs = []
        · have hrun : entriesOf other (runCallback tick runs other) =
              [(tick, other)] := by
            rw [runCallback, if_pos hran, entriesOf_append, hran,
              entriesOf_singleton_self, List.nil_append]
          simp [hrun, hran]
        · rw [runCallback, if_neg hran, if_neg fun h => hran h.2,
            if_neg fun h => hran h.2]
      · have hrun : entriesOf timer (runCallback tick runs other) =
            entriesOf timer runs := by
          rw [runCallback]
          split
          · rw [entriesOf_append, entriesOf_singleton_of_ne hother,
              List.append_nil]
          · rfl
        rw [hrun]
        simp [Ne.symm hother]

omit [DecidableEq Timer] in
theorem TimingWheel.mem_timers {wheel : TimingWheel Timer} {timer : Timer} :
    timer ∈ wheel.timers ↔ ∃ due, (due, timer) ∈ wheel.routes := by
  have hqueue : ∀ (queue : List (Bucket Timer)) (period front : ℕ),
      timer ∈ queue.flatten.map Link.timer ↔
        ∃ due, (due, timer) ∈ queueRoutes wheel.radix period front queue := by
    intro queue
    induction queue with
    | nil => simp [queueRoutes]
    | cons bucket queue ih =>
        intro period front
        have hbucket : timer ∈ bucket.map Link.timer ↔
            ∃ due, (due, timer) ∈ bucketRoutes wheel.radix front bucket := by
          simp only [bucketRoutes, Multiset.mem_coe, List.mem_map,
            Prod.mk.injEq]
          constructor
          · rintro ⟨link, hlink, htimer⟩
            exact ⟨_, link, hlink, rfl, htimer⟩
          · rintro ⟨_, link, hlink, _, htimer⟩
            exact ⟨link, hlink, htimer⟩
        rw [List.flatten_cons, List.map_append, List.mem_append, hbucket,
          ih period (front + period), queueRoutes, ← exists_or]
        exact exists_congr fun due => Multiset.mem_add.symm
  have hlevels : ∀ (levels : List (List (Bucket Timer))) (level : ℕ),
      timer ∈ levels.flatten.flatten.map Link.timer ↔
        ∃ due, (due, timer) ∈ levelsRoutes wheel.radix
          (nextRotation wheel.radix wheel.ticks) level levels := by
    intro levels
    induction levels with
    | nil => simp [levelsRoutes]
    | cons queue levels ih =>
        intro level
        rw [List.flatten_cons, List.flatten_append, List.map_append,
          List.mem_append, hqueue queue (wheel.radix ^ level)
            (nextRotation wheel.radix wheel.ticks level), ih (level + 1),
          levelsRoutes, ← exists_or]
        exact exists_congr fun due => Multiset.mem_add.symm
  exact hlevels wheel.levels 0

end References

/-! ## The invariant -/

namespace TimerBoard

/-- The wheel holds exactly the routes still to come, and a timer it holds has
not run unless it was fired. -/
structure Coherent (board : TimerBoard Timer) : Prop where
  wellFormed : board.wheel.WellFormed
  levels_pos : 0 < board.wheel.levels.length
  routes : board.wheel.routes =
    (board.agenda : Multiset (ℕ × Timer)).filter (board.wheel.ticks < ·.1)
  released : (board.released : Multiset (ℕ × Timer)) =
    (board.agenda : Multiset (ℕ × Timer)).filter (·.1 ≤ board.wheel.ticks)
  fired : ∀ timer first, (entriesOf timer board.fires).head? = some first →
    entriesOf timer board.runs = [first]
  waiting : ∀ timer, entriesOf timer board.fires = [] → board.Alive timer →
    entriesOf timer board.runs = []
  done : ∀ timer, entriesOf timer board.fires = [] → ¬board.Alive timer →
    ∃ latest, IsGreatest {due | (due, timer) ∈ board.agenda} latest ∧
      entriesOf timer board.runs = [(latest, timer)]

variable {board : TimerBoard Timer}

omit [DecidableEq Timer] in
/-- What a call moves from the wheel to the released routes, by due tick. -/
theorem routes_split {wheel wheel' : TimingWheel Timer}
    {asked : List (ℕ × Timer)} {dropped : List Timer}
    (hmoved : (dropped.map (Prod.mk wheel'.ticks) : Multiset (ℕ × Timer)) +
      wheel'.routes = wheel.routes + asked) :
    wheel'.routes =
        (wheel.routes + asked).filter (wheel'.ticks < ·.1) ∧
      (dropped.map (Prod.mk wheel'.ticks) : Multiset (ℕ × Timer)) =
        (wheel.routes + asked).filter (·.1 ≤ wheel'.ticks) := by
  have hlater : ∀ entry ∈ wheel'.routes, wheel'.ticks < entry.1 :=
    fun entry hentry => TimingWheel.lt_of_mem_routes hentry
  have hnow : ∀ entry ∈ (dropped.map (Prod.mk wheel'.ticks) :
      Multiset (ℕ × Timer)), entry.1 = wheel'.ticks := by
    intro entry hentry
    obtain ⟨timer, -, rfl⟩ := List.mem_map.mp hentry
    rfl
  rw [← hmoved, Multiset.filter_add, Multiset.filter_add]
  constructor
  · rw [Multiset.filter_eq_nil.mpr fun entry hentry =>
        Nat.not_lt_of_le (hnow entry hentry).le,
      Multiset.filter_eq_self.mpr hlater, zero_add]
  · rw [Multiset.filter_eq_self.mpr fun entry hentry => (hnow entry hentry).le,
      Multiset.filter_eq_nil.mpr fun entry hentry =>
        Nat.not_le_of_lt (hlater entry hentry), add_zero]

theorem Coherent.mem_timers (hboard : board.Coherent) {timer : Timer} :
    timer ∈ board.wheel.timers ↔
      ∃ due, (due, timer) ∈ board.agenda ∧ board.wheel.ticks < due := by
  rw [TimingWheel.mem_timers, hboard.routes]
  exact exists_congr fun due => Multiset.mem_filter

/-- A call that releases routes at the wheel's tick and keeps the others keeps
the invariant. -/
theorem Coherent.advanced (hboard : board.Coherent)
    {asked : List (ℕ × Timer)} {wheel' : TimingWheel Timer}
    {dropped : List Timer} (hwheel : wheel'.WellFormed)
    (hlevels : 0 < wheel'.levels.length)
    (hticks : board.wheel.ticks ≤ wheel'.ticks)
    (halive : ∀ entry ∈ asked, board.Alive entry.2)
    (hmoved : (dropped.map (Prod.mk wheel'.ticks) : Multiset (ℕ × Timer)) +
      wheel'.routes = board.wheel.routes + asked) :
    (board.advance asked wheel' dropped).Coherent := by
  obtain ⟨hkept, hreleased⟩ := routes_split hmoved
  have hroutes : wheel'.routes =
      (↑(board.agenda ++ asked) : Multiset (ℕ × Timer)).filter
        (wheel'.ticks < ·.1) := by
    rw [hkept, hboard.routes, ← Multiset.coe_add, Multiset.filter_add,
      Multiset.filter_add, Multiset.filter_filter]
    congr 1
    exact Multiset.filter_congr fun entry _ =>
      ⟨And.left, fun hlt => ⟨hlt, hticks.trans_lt hlt⟩⟩
  have hheld : ∀ timer, timer ∈ wheel'.timers ↔
      ∃ due, (due, timer) ∈ board.agenda ++ asked ∧ wheel'.ticks < due := by
    intro timer
    rw [TimingWheel.mem_timers, hroutes]
    exact exists_congr fun due => Multiset.mem_filter
  have hdropped : ∀ timer ∈ dropped,
      (wheel'.ticks, timer) ∈ board.agenda ++ asked ∧ board.Alive timer := by
    intro timer htimer
    have hmem : (wheel'.ticks, timer) ∈ board.wheel.routes + asked :=
      Multiset.mem_of_mem_filter (hreleased ▸
        Multiset.mem_coe.mpr (List.mem_map_of_mem htimer))
    rcases Multiset.mem_add.mp hmem with hold | hnew
    · refine ⟨?_, .inr (TimingWheel.mem_timers.mpr ⟨_, hold⟩)⟩
      rw [hboard.routes] at hold
      exact List.mem_append_left _ (Multiset.mem_of_mem_filter hold)
    · exact ⟨List.mem_append_right _ hnew, halive _ hnew⟩
  have hruns : ∀ timer, entriesOf timer (board.advance asked wheel' dropped).runs =
      if (timer ∈ dropped ∧ timer ∉ wheel'.timers) ∧
          entriesOf timer board.runs = [] then [(wheel'.ticks, timer)]
      else entriesOf timer board.runs := by
    intro timer
    simp only [advance, entriesOf_foldl_runCallback, mem_lastReleased]
  -- A timer still alive after the call was alive before it.
  have hstill : ∀ timer, (board.advance asked wheel' dropped).Alive timer →
      board.Alive timer ∧ ¬(timer ∈ dropped ∧ timer ∉ wheel'.timers) := by
    rintro timer (hnew | hholds)
    · have hnone := entriesOf_eq_nil.mp hnew
      refine ⟨.inl (entriesOf_eq_nil.mpr fun due hmem =>
        hnone due (List.mem_append_left _ hmem)), fun ⟨hmem, _⟩ =>
        hnone _ (hdropped timer hmem).1⟩
    · refine ⟨?_, fun ⟨_, hnot⟩ => hnot hholds⟩
      obtain ⟨due, hmem, hdue⟩ := (hheld timer).mp hholds
      rcases List.mem_append.mp hmem with hold | hnew
      · exact .inr (hboard.mem_timers.mpr ⟨due, hold, hticks.trans_lt hdue⟩)
      · exact halive _ hnew
  refine ⟨hwheel, hlevels, hroutes, ?_, ?_, ?_, ?_⟩
  · rw [advance, ← Multiset.coe_add, hboard.released, hreleased, hboard.routes,
      ← Multiset.coe_add, Multiset.filter_add, Multiset.filter_add,
      Multiset.filter_filter, ← add_assoc]
    congr 1
    rw [← Multiset.filter_add_not (·.1 ≤ board.wheel.ticks)
        ((board.agenda : Multiset (ℕ × Timer)).filter (·.1 ≤ wheel'.ticks)),
      Multiset.filter_filter, Multiset.filter_filter]
    congr 1
    · exact Multiset.filter_congr fun entry _ =>
        ⟨fun hle => ⟨hle, hle.trans hticks⟩, And.left⟩
    · exact Multiset.filter_congr fun entry _ => by
        rw [Nat.not_le]
        exact and_comm
  · intro timer first hfirst
    have hran := hboard.fired timer first hfirst
    rw [hruns, hran, if_neg fun h => List.cons_ne_nil _ _ h.2]
  · intro timer hunfired hafter
    obtain ⟨hbefore, hnot⟩ := hstill timer hafter
    rw [hruns, if_neg fun h => hnot h.1]
    exact hboard.waiting timer hunfired hbefore
  · intro timer hunfired hafter
    have hgone : timer ∉ wheel'.timers := fun hholds => hafter (.inr hholds)
    by_cases hmem : timer ∈ dropped
    · obtain ⟨hasked, hbefore⟩ := hdropped timer hmem
      refine ⟨wheel'.ticks, ⟨hasked, fun due hdue => ?_⟩, ?_⟩
      · by_contra hlt
        exact hgone ((hheld timer).mpr ⟨due, hdue, Nat.lt_of_not_le hlt⟩)
      · rw [hruns, if_pos ⟨⟨hmem, hgone⟩, hboard.waiting timer hunfired hbefore⟩]
    · have hnotAsked : ∀ due, (due, timer) ∉ board.wheel.routes +
          (asked : Multiset (ℕ × Timer)) := by
        intro due hdue
        rw [← hmoved] at hdue
        rcases Multiset.mem_add.mp hdue with hnow | hkept
        · obtain ⟨other, hother, heq⟩ := List.mem_map.mp hnow
          obtain rfl : other = timer := congrArg Prod.snd heq
          exact hmem hother
        · exact hgone (TimingWheel.mem_timers.mpr ⟨due, hkept⟩)
      have hbefore : ¬board.Alive timer := by
        rintro (hnew | hholds)
        · refine hafter (.inl (entriesOf_eq_nil.mpr fun due hdue => ?_))
          rcases List.mem_append.mp hdue with hold | hasked
          · exact entriesOf_eq_nil.mp hnew due hold
          · exact hnotAsked due (Multiset.mem_add.mpr (.inr hasked))
        · obtain ⟨due, hdue⟩ := TimingWheel.mem_timers.mp hholds
          exact hnotAsked due (Multiset.mem_add.mpr (.inl hdue))
      obtain ⟨latest, ⟨hlatest, hgreatest⟩, hran⟩ :=
        hboard.done timer hunfired hbefore
      refine ⟨latest, ⟨List.mem_append_left _ hlatest, fun due hdue => ?_⟩, ?_⟩
      · rcases List.mem_append.mp hdue with hold | hasked
        · exact hgreatest hold
        · exact absurd (Multiset.mem_add.mpr (.inr hasked)) (hnotAsked due)
      · rw [hruns, if_neg fun h => hmem h.1.1, hran]

end TimerBoard

/-! ## Runs -/

section Runs

variable {maxDelay radix : ℕ} {hradix : 1 < radix}

namespace TimingWheel

omit [DecidableEq Timer] in
theorem le_levelCount (fuel span levels : ℕ) :
    levels ≤ levelCount maxDelay radix fuel span levels := by
  induction fuel generalizing span levels with
  | zero => exact le_rfl
  | succ fuel ih =>
      rw [levelCount]
      split
      · exact (Nat.le_succ levels).trans (ih _ _)
      · exact le_rfl

omit [DecidableEq Timer] in
theorem new_levels_pos :
    0 < (new maxDelay radix hradix : TimingWheel Timer).levels.length := by
  rw [new, List.length_replicate]
  exact le_levelCount 64 radix 1

omit [DecidableEq Timer] in
theorem wellFormed_new (hle : radix ≤ 65536)
    (hfits : radix ^
      (new maxDelay radix hradix : TimingWheel Timer).levels.length ≤
      u64Max) :
    (new maxDelay radix hradix : TimingWheel Timer).WellFormed where
  radix_le := hle
  span_le := hfits
  queues level queue hqueue := by
    obtain rfl := List.eq_of_mem_replicate (List.mem_of_getElem? hqueue)
    refine ⟨List.length_replicate, fun bucket hbucket link hlink => ?_⟩
    rw [List.eq_of_mem_replicate hbucket] at hlink
    cases hlink

omit [DecidableEq Timer] in
theorem routes_new :
    (new maxDelay radix hradix : TimingWheel Timer).routes = 0 := by
  have hqueue : ∀ (count period due : ℕ),
      queueRoutes radix period due
        (.replicate count [] : List (Bucket Timer)) = 0 := by
    intro count period
    induction count with
    | zero => exact fun _ => rfl
    | succ count ih =>
        intro due
        rw [List.replicate_succ, queueRoutes, ih]
        rfl
  have hlevels : ∀ (count level : ℕ) (next : ℕ → ℕ),
      levelsRoutes radix next level
        (.replicate count (.replicate radix []) :
          List (List (Bucket Timer))) = 0 := by
    intro count
    induction count with
    | zero => exact fun _ _ => rfl
    | succ count ih =>
        intro level next
        rw [List.replicate_succ, levelsRoutes, hqueue, ih, zero_add]
  exact hlevels _ 0 _

end TimingWheel

namespace TimerBoard

theorem coherent_new (hle : radix ≤ 65536)
    (hfits : radix ^
      (TimingWheel.new maxDelay radix hradix :
        TimingWheel Timer).levels.length ≤ u64Max) :
    (new maxDelay radix hradix : TimerBoard Timer).Coherent where
  wellFormed := TimingWheel.wellFormed_new hle hfits
  levels_pos := TimingWheel.new_levels_pos
  routes := TimingWheel.routes_new
  released := rfl
  fired _ _ hfirst := absurd hfirst (Option.some_ne_none _).symm
  waiting _ _ _ := rfl
  done _ _ hgone := absurd (.inl rfl) hgone

theorem Coherent.step {board next : TimerBoard Timer} {call : TimerCall Timer}
    (hboard : board.Coherent) (hstep : board.step call = some next) :
    next.Coherent := by
  cases call with
  | schedule delay timer =>
      rw [TimerBoard.step] at hstep
      obtain ⟨⟨halive, hclock⟩, hnext⟩ := Option.ite_none_right_eq_some.mp hstep
      obtain rfl : board.advance [(board.dueTick delay, timer)]
          (board.wheel.schedule delay timer).1
          (board.wheel.schedule delay timer).2 = next := Option.some.inj hnext
      have hasked : ∀ entry ∈ [(board.dueTick delay, timer)],
          board.Alive entry.2 := by
        intro entry hentry
        rwa [List.mem_singleton.mp hentry]
      by_cases hrange : 0 < delay ∧ delay ≤ board.wheel.maxDelay
      · obtain ⟨hwheel, hshape, hdropped, hroutes⟩ :=
          hboard.wellFormed.scheduled timer hboard.levels_pos hrange.1 hrange.2
            hclock
        apply hboard.advanced hwheel
          (hshape.length_eq ▸ hboard.levels_pos) hshape.ticks_eq.ge hasked
        rw [hdropped, hroutes, dueTick, if_pos hrange, List.map_nil,
          Multiset.coe_nil, zero_add, Multiset.coe_singleton, Multiset.add_comm,
          Multiset.singleton_add]
      · have hschedule : board.wheel.schedule delay timer =
            (board.wheel, [timer]) := by
          rw [TimingWheel.schedule, if_pos (by omega)]
        rw [hschedule]
        apply hboard.advanced hboard.wellFormed hboard.levels_pos le_rfl hasked
        rw [dueTick, if_neg hrange, add_comm]
        rfl
  | tick =>
      rw [TimerBoard.step] at hstep
      obtain ⟨hclock, hnext⟩ := Option.ite_none_right_eq_some.mp hstep
      obtain rfl : board.advance [] board.wheel.tick.1 board.wheel.tick.2 = next :=
        Option.some.inj hnext
      obtain ⟨hwheel, hticks, -, hlength, hroutes⟩ :=
        hboard.wellFormed.ticked hclock
      apply hboard.advanced hwheel (hlength ▸ hboard.levels_pos)
        (hticks ▸ Nat.le_succ _) (fun _ hentry => absurd hentry List.not_mem_nil)
      rw [hticks, hroutes, Multiset.coe_nil, add_zero]
  | fire timer =>
      rw [TimerBoard.step] at hstep
      obtain ⟨halive, hnext⟩ := Option.ite_none_right_eq_some.mp hstep
      obtain rfl := Option.some.inj hnext
      have hruns : ∀ other, entriesOf other
          (runCallback board.wheel.ticks board.runs timer) =
            if other = timer ∧ entriesOf other board.runs = [] then
              [(board.wheel.ticks, other)]
            else entriesOf other board.runs := by
        intro other
        simpa using
          entriesOf_foldl_runCallback board.wheel.ticks other [timer] board.runs
      have hunfired : ∀ other,
          entriesOf other
              (board.fires ++ [(board.wheel.ticks, timer)]) = [] →
            entriesOf other board.fires = [] ∧ other ≠ timer := by
        intro other hnone
        rw [entriesOf_append] at hnone
        obtain ⟨hbefore, hnow⟩ := List.append_eq_nil_iff.mp hnone
        refine ⟨hbefore, ?_⟩
        rintro rfl
        rw [entriesOf_singleton_self] at hnow
        cases hnow
      refine ⟨hboard.wellFormed, hboard.levels_pos, hboard.routes,
        hboard.released, ?_, ?_, ?_⟩
      · intro other first hfirst
        simp only [hruns]
        rw [entriesOf_append, List.head?_append] at hfirst
        cases hbefore : (entriesOf other board.fires).head? with
        | some earlier =>
            rw [hbefore] at hfirst
            have hran := hboard.fired other earlier hbefore
            rw [hran, if_neg fun h => List.cons_ne_nil _ _ h.2]
            exact congrArg (fun entry => [entry]) (Option.some.inj hfirst)
        | none =>
            rw [hbefore, Option.none_or] at hfirst
            obtain rfl : other = timer := by
              by_contra hne
              rw [entriesOf_singleton_of_ne (Ne.symm hne)] at hfirst
              cases hfirst
            rw [entriesOf_singleton_self] at hfirst
            have hnew := List.head?_eq_none_iff.mp hbefore
            rw [if_pos ⟨rfl, hboard.waiting other hnew halive⟩]
            exact congrArg (fun entry => [entry]) (Option.some.inj hfirst)
      · intro other hnone hother
        obtain ⟨hbefore, hne⟩ := hunfired other hnone
        simp only [hruns]
        rw [if_neg fun h => hne h.1]
        exact hboard.waiting other hbefore hother
      · intro other hnone hother
        obtain ⟨hbefore, hne⟩ := hunfired other hnone
        simp only [hruns]
        rw [if_neg fun h => hne h.1]
        exact hboard.done other hbefore hother

theorem Coherent.exact {board : TimerBoard Timer} (hboard : board.Coherent) :
    board.Exact where
  released := hboard.released
  fired := hboard.fired
  unfired timer hunfired hasked := by
    by_cases hheld : timer ∈ board.wheel.timers
    · obtain ⟨due, hdue, hlater⟩ := hboard.mem_timers.mp hheld
      have hdues : {tick | (tick, timer) ∈ board.agenda} =
          ↑((entriesOf timer board.agenda).map Prod.fst).toFinset := by
        ext tick
        simp [entriesOf]
      have hnonempty :
          ((entriesOf timer board.agenda).map Prod.fst).toFinset.Nonempty := by
        rw [← Finset.coe_nonempty, ← hdues]
        exact ⟨due, hdue⟩
      have hgreatest := Finset.isGreatest_max' _ hnonempty
      rw [← hdues] at hgreatest
      refine ⟨_, hgreatest, ?_⟩
      rw [hboard.waiting timer hunfired (.inr hheld),
        if_neg (Nat.not_le_of_lt (hlater.trans_le (hgreatest.2 hdue)))]
    · have hgone : ¬board.Alive timer := by
        rintro (hnew | hholds)
        · exact hasked hnew
        · exact hheld hholds
      obtain ⟨latest, hgreatest, hran⟩ := hboard.done timer hunfired hgone
      have hpast : latest ≤ board.wheel.ticks := by
        by_contra hlt
        exact hheld (hboard.mem_timers.mpr
          ⟨latest, hgreatest.1, Nat.lt_of_not_le hlt⟩)
      exact ⟨latest, hgreatest, by rw [hran, if_pos hpast]⟩

/-- Every route is released at exactly the tick it was scheduled for, and every
timer runs once. -/
theorem exact_of_reachable (hle : radix ≤ 65536)
    (hfits : radix ^
      (TimingWheel.new maxDelay radix hradix :
        TimingWheel Timer).levels.length ≤ u64Max)
    {board : TimerBoard Timer}
    (hreachable : (timerSystem maxDelay radix hradix).Reachable board) :
    board.Exact := by
  refine Coherent.exact (hreachable.invariant ?_ ?_)
  · rintro start rfl
    exact coherent_new hle hfits
  · intro state call next hboard hstep
    exact hboard.step hstep

/-- Two digits and an offset: the first timer is moved from tick 3 to tick 7, the
second is fired before its tick. -/
def movedAndFired : List (TimerCall ℕ) :=
  [.tick, .schedule 2 0, .schedule 6 0, .schedule 8 1, .tick, .tick, .fire 1,
    .tick, .tick, .tick, .tick, .tick, .tick]

theorem exact_movedAndFired :
    ∃ board : TimerBoard ℕ, board.runs = [(3, 1), (7, 0)] ∧ board.Exact := by
  have hrun : (movedAndFired.foldlM TimerBoard.step
      (.new 8 2 one_lt_two)).map TimerBoard.runs = some [(3, 1), (7, 0)] := by
    decide +kernel
  obtain ⟨board, hfold, hruns⟩ := Option.map_eq_some_iff.mp hrun
  exact ⟨board, hruns, exact_of_reachable (by decide) (by decide +kernel)
    (Transition.System.reachable_of_foldlM (fun _ _ _ hstep => hstep) rfl
      hfold)⟩

end TimerBoard

end Runs

end PbMapper.Auth
