import PbMapper.Foundation.Effect
import Mathlib.Data.Nat.Notation

/-!
# Programs that keep a journal

The state of such a program has a list of entries that only grows at its end.
The rules say what a program adds to it, whether it ends with a value or is cut
short, and so hold at every point where a program can be abandoned.
-/

namespace Effect

variable {State Error First Second Entry : Type}

/-- What the program adds to the journal is as `done` says of its value, or as
`cut` says. -/
def Appends (journal : State → List Entry) (program : Effect State Error First)
    (done : First → List Entry → Prop) (cut : List Entry → Prop) : Prop :=
  ∀ state, ∃ added, journal (program.exec state).2 = journal state ++ added ∧
    match (program.exec state).1 with
    | .ok value => done value added
    | .error _ => cut added

/-- Nothing is added. -/
def Silent (journal : State → List Entry) (program : Effect State Error First) :
    Prop :=
  ∀ state, journal (program.exec state).2 = journal state

variable {journal : State → List Entry}
  {done done' : First → List Entry → Prop} {cut cut' : List Entry → Prop}

theorem Silent.appends {program : Effect State Error First}
    (hsilent : Silent journal program) (hdone : ∀ value, done value [])
    (hcut : cut []) : Appends journal program done cut := by
  intro state
  refine ⟨[], by rw [hsilent state, List.append_nil], ?_⟩
  cases (program.exec state).1 with
  | ok value => exact hdone value
  | error error => exact hcut

theorem Appends.pure {value : First} (hdone : done value []) :
    Appends journal (Pure.pure value : Effect State Error First) done cut :=
  fun _ => ⟨[], (List.append_nil _).symm, hdone⟩

theorem Appends.throw {error : Error} (hcut : cut []) :
    Appends journal (throw error : Effect State Error First) done cut :=
  fun _ => ⟨[], (List.append_nil _).symm, hcut⟩

/-- The rule of consequence. -/
theorem Appends.mono {program : Effect State Error First}
    (hprogram : Appends journal program done cut)
    (hdone : ∀ value added, done value added → done' value added)
    (hcut : ∀ added, cut added → cut' added) :
    Appends journal program done' cut' := by
  intro state
  obtain ⟨added, hadded, hended⟩ := hprogram state
  refine ⟨added, hadded, ?_⟩
  cases hresult : (program.exec state).1 with
  | ok value =>
      rw [hresult] at hended
      exact hdone value added hended
  | error error =>
      rw [hresult] at hended
      exact hcut added hended

/-- The rule of sequences. -/
theorem Appends.bind {first : Effect State Error First}
    {next : First → Effect State Error Second}
    {middle : First → List Entry → Prop} {done : Second → List Entry → Prop}
    (hfirst : Appends journal first middle cut)
    (hnext : ∀ value added, middle value added →
      Appends journal (next value) (fun ended later => done ended (added ++ later))
        (fun later => cut (added ++ later))) :
    Appends journal (first >>= next) done cut := by
  intro state
  obtain ⟨added, hadded, hended⟩ := hfirst state
  rw [exec_bind]
  rcases hexec : first.exec state with ⟨error | value, last⟩
  · rw [hexec] at hadded hended
    exact ⟨added, hadded, hended⟩
  · rw [hexec] at hadded hended
    obtain ⟨later, hlater, hresult⟩ := hnext value added hended last
    refine ⟨added ++ later, ?_, hresult⟩
    rw [hlater, hadded, List.append_assoc]

/-- A silent step before a program. -/
theorem Silent.bind {first : Effect State Error First}
    {next : First → Effect State Error Second}
    {done : Second → List Entry → Prop} (hfirst : Silent journal first)
    (hcut : cut []) (hnext : ∀ value, Appends journal (next value) done cut) :
    Appends journal (first >>= next) done cut := by
  have hnothing : Appends journal first (fun _ added => added = []) cut :=
    hfirst.appends (fun _ => rfl) hcut
  apply hnothing.bind
  rintro value _ rfl
  exact hnext value

theorem Silent.seq {first : Effect State Error First}
    {next : First → Effect State Error Second} (hfirst : Silent journal first)
    (hnext : ∀ value, Silent journal (next value)) :
    Silent journal (first >>= next) := by
  intro state
  rw [exec_bind]
  have hmiddle := hfirst state
  rcases hexec : first.exec state with ⟨error | value, last⟩
  · rwa [hexec] at hmiddle
  · rw [hexec] at hmiddle
    exact (hnext value last).trans hmiddle

/-- Turns of a loop until it ends, or until no turn is left. -/
def iterate {Loop Value : Type} (body : Loop → Effect State Error (Loop ⊕ Value))
    (unfinished : Error) : ℕ → Loop → Effect State Error Value
  | 0, _ => throw unfinished
  | turns + 1, loop => do
      match ← body loop with
      | .inl loop => iterate body unfinished turns loop
      | .inr value => pure value

/-- What every turn keeps, the loop keeps, however many turns it takes. -/
theorem Appends.iterate {Loop Value : Type}
    {body : Loop → Effect State Error (Loop ⊕ Value)} {unfinished : Error}
    {inv : Loop → List Entry → Prop} {done : Value → List Entry → Prop}
    (hbody : ∀ loop added, inv loop added →
      Appends journal (body loop)
        (fun ended later => Sum.elim inv done ended (added ++ later))
        (fun later => cut (added ++ later)))
    (hcut : ∀ loop added, inv loop added → cut added) (turns : ℕ) {loop : Loop}
    {added : List Entry} (hinv : inv loop added) :
    Appends journal (Effect.iterate body unfinished turns loop)
      (fun value later => done value (added ++ later))
      (fun later => cut (added ++ later)) := by
  induction turns generalizing loop added with
  | zero =>
      apply Appends.throw
      rw [List.append_nil]
      exact hcut loop added hinv
  | succ turns ih =>
      rw [Effect.iterate]
      apply Appends.bind (hbody loop added hinv)
      rintro (loop | value) later hlater
      · have hrest := ih hlater
        simpa only [List.append_assoc] using hrest
      · apply Appends.pure
        rwa [List.append_nil]

/-! ## Journals side by side -/

/-- Where one journal at most has entries, they are the entries of one journal. -/
theorem journals_of_pairwise {Owner : Type} {owners : List Owner}
    {journalOf : Owner → List Entry}
    (hone : owners.Pairwise fun first second =>
      journalOf first = [] ∨ journalOf second = []) :
    owners.flatMap journalOf = [] ∨
      ∃ owner ∈ owners, owners.flatMap journalOf = journalOf owner := by
  induction owners with
  | nil => exact .inl rfl
  | cons owner owners ih =>
      rw [List.pairwise_cons] at hone
      rw [List.flatMap_cons]
      by_cases hempty : journalOf owner = []
      · rw [hempty, List.nil_append]
        apply (ih hone.2).imp_right
        rintro ⟨other, hother, hentries⟩
        exact ⟨other, List.mem_cons_of_mem _ hother, hentries⟩
      · have hrest : owners.flatMap journalOf = [] := by
          rw [List.flatMap_eq_nil_iff]
          intro other hother
          exact (hone.1 other hother).resolve_left hempty
        rw [hrest, List.append_nil]
        exact .inr ⟨owner, List.mem_cons_self, rfl⟩

end Effect
