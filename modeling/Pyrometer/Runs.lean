import Mathlib.Tactic

/-!
# Runs of a deterministic system

A run is the fold of a step function over a list of events. `Along` says that
every step of a run meets a condition that may look at the state the step is
taken from. The induction rules below are all that later modules use of runs.
-/

namespace Pyrometer.Runs

variable {State Event : Type} (step : State → Event → State)

/-- The state after a list of events. -/
def run (start : State) (events : List Event) : State := events.foldl step start

/-- Every step of the run meets the condition in the state it is taken from. -/
def Along (condition : State → Event → Prop) : State → List Event → Prop
  | _, [] => True
  | state, event :: rest => condition state event ∧ Along condition (step state event) rest

/-- Two systems that take their steps on the same events. -/
def both {Other : Type} (other : Other → Event → Other) (pair : State × Other) (event : Event) :
    State × Other :=
  (step pair.1 event, other pair.2 event)

/-- Two systems side by side each make their own run. -/
theorem run_both {Other : Type} (other : Other → Event → Other) (pair : State × Other)
    (events : List Event) :
    run (both step other) pair events = (run step pair.1 events, run other pair.2 events) := by
  induction events generalizing pair with
  | nil => rfl
  | cons event rest inductionHypothesis => exact inductionHypothesis _

/-- Of two systems side by side the first meets a condition exactly when it does so alone. -/
theorem along_left {Other : Type} (other : Other → Event → Other)
    {condition : State → Event → Prop} (pair : State × Other) (events : List Event) :
    Along (both step other) (fun pair event => condition pair.1 event) pair events ↔
      Along step condition pair.1 events := by
  induction events generalizing pair with
  | nil => exact Iff.rfl
  | cons event rest inductionHypothesis => exact and_congr_right fun _ => inductionHypothesis _

/-- A condition on events alone is met along a run exactly when each event meets it. -/
theorem along_events {eligible : Event → Prop} (start : State) (events : List Event) :
    Along step (fun _ event => eligible event) start events ↔ ∀ event ∈ events, eligible event := by
  induction events generalizing start with
  | nil => simp [Along]
  | cons event rest inductionHypothesis =>
    rw [List.forall_mem_cons]
    exact and_congr_right fun _ => inductionHypothesis (step start event)

/-- A run over two lists of events goes on behind the first. -/
theorem run_append (start : State) (first second : List Event) :
    run step start (first ++ second) = run step (run step start first) second :=
  List.foldl_append

/-- A run over one more event takes one more step. -/
theorem run_snoc (start : State) (events : List Event) (event : Event) :
    run step start (events ++ [event]) = step (run step start events) event := by
  simp [run, List.foldl_append]

/-- A condition met along a run is met along each of its first parts. -/
theorem along_append {condition : State → Event → Prop} (start : State)
    (first second : List Event) :
    Along step condition start (first ++ second) ↔
      Along step condition start first ∧ Along step condition (run step start first) second := by
  induction first generalizing start with
  | nil => simp [Along, run]
  | cons event rest inductionHypothesis =>
    simp only [List.cons_append, Along, inductionHypothesis, and_assoc]
    rfl

/-- A condition on events alone joins one that is met along a run. -/
theorem along_and {condition : State → Event → Prop} {eligible : Event → Prop} (start : State)
    (events : List Event) (all : ∀ event ∈ events, eligible event)
    (met : Along step condition start events) :
    Along step (fun state event => eligible event ∧ condition state event) start events := by
  induction events generalizing start with
  | nil => exact True.intro
  | cons event rest inductionHypothesis =>
    refine ⟨⟨all event (by simp), met.1⟩, inductionHypothesis (step start event) ?_ met.2⟩
    exact fun later member => all later (by simp [member])

/-- Two conditions that are met along a run are met together. -/
theorem along_both {first second : State → Event → Prop} (start : State) (events : List Event)
    (one : Along step first start events) (two : Along step second start events) :
    Along step (fun state event => first state event ∧ second state event) start events := by
  induction events generalizing start with
  | nil => exact True.intro
  | cons event rest inductionHypothesis =>
    exact ⟨⟨one.1, two.1⟩, inductionHypothesis (step start event) one.2 two.2⟩

/-- What each step that meets the condition preserves holds after every run whose
steps meet it. -/
theorem along_invariant {condition : State → Event → Prop} {invariant : State → Prop}
    (preserved : ∀ state event, invariant state → condition state event →
      invariant (step state event))
    (start : State) (initial : invariant start) (events : List Event)
    (met : Along step condition start events) : invariant (run step start events) := by
  induction events generalizing start with
  | nil => exact initial
  | cons event rest inductionHypothesis =>
    exact inductionHypothesis (step start event) (preserved start event initial met.1) met.2

/-- What every step preserves holds after every run. -/
theorem run_invariant {invariant : State → Prop}
    (preserved : ∀ state event, invariant state → invariant (step state event))
    (start : State) (initial : invariant start) (events : List Event) :
    invariant (run step start events) := by
  induction events generalizing start with
  | nil => exact initial
  | cons event rest inductionHypothesis =>
    exact inductionHypothesis (step start event) (preserved start event initial)

/-- Two systems that a relation joins stay joined along every run of the first whose
steps meet the condition, when each such step keeps the relation. -/
theorem along_simulation {Other : Type} (other : Other → Event → Other)
    {condition : State → Event → Prop} {relation : State → Other → Prop}
    (preserved : ∀ state image event, relation state image → condition state event →
      relation (step state event) (other image event))
    (start : State) (image : Other) (initial : relation start image) (events : List Event)
    (met : Along step condition start events) :
    relation (run step start events) (run other image events) := by
  induction events generalizing start image with
  | nil => exact initial
  | cons event rest inductionHypothesis =>
    exact inductionHypothesis (step start event) (other image event)
      (preserved start image event initial met.1) met.2

/-- A condition met along a run carries over to what follows from it in every state
that meets an invariant. -/
theorem along_carry {invariant : State → Prop} {first second : State → Event → Prop}
    (preserved : ∀ state event, invariant state → invariant (step state event))
    (carry : ∀ state event, invariant state → first state event → second state event)
    (start : State) (initial : invariant start) (events : List Event)
    (met : Along step first start events) : Along step second start events := by
  induction events generalizing start with
  | nil => exact True.intro
  | cons event rest inductionHypothesis =>
    exact ⟨carry start event initial met.1,
      inductionHypothesis (step start event) (preserved start event initial) met.2⟩

/-- Conditions that are one in every state that meets an invariant are met along the
same runs. -/
theorem along_iff {invariant : State → Prop} {first second : State → Event → Prop}
    (preserved : ∀ state event, invariant state → invariant (step state event))
    (same : ∀ state event, invariant state → (first state event ↔ second state event))
    (start : State) (initial : invariant start) (events : List Event) :
    Along step first start events ↔ Along step second start events := by
  constructor
  · apply along_carry step preserved _ start initial
    exact fun state event kept => (same state event kept).mp
  · apply along_carry step preserved _ start initial
    exact fun state event kept => (same state event kept).mpr

/-- A condition that preserves an invariant, and that steps from it into a property must
meet, is met along a run exactly when the property holds after each first part of it. -/
theorem along_determines {condition : State → Event → Prop} {invariant property : State → Prop}
    (sound : ∀ state, invariant state → property state)
    (preserved : ∀ state event, invariant state → condition state event →
      invariant (step state event))
    (needed : ∀ state event, invariant state → property (step state event) →
      condition state event)
    (start : State) (initial : invariant start) (events : List Event) :
    Along step condition start events ↔
      ∀ first, first <+: events → property (run step start first) := by
  induction events generalizing start with
  | nil =>
    refine ⟨fun _ first part => ?_, fun _ => True.intro⟩
    obtain rfl := List.prefix_nil.mp part
    exact sound start initial
  | cons event rest inductionHypothesis =>
    constructor
    · rintro ⟨met, later⟩ first part
      cases first with
      | nil => exact sound start initial
      | cons other first =>
        obtain ⟨rfl, inner⟩ := List.cons_prefix_cons.mp part
        have next := preserved start other initial met
        exact (inductionHypothesis (step start other) next).mp later first inner
    · intro all
      have one : property (step start event) := all [event] (List.prefix_cons_inj event |>.mpr
        (List.nil_prefix))
      have met := needed start event initial one
      refine ⟨met, ?_⟩
      have next := preserved start event initial met
      refine (inductionHypothesis (step start event) next).mpr (fun first part => ?_)
      exact all (event :: first) (List.cons_prefix_cons.mpr ⟨rfl, part⟩)

/-- A condition that a step meets exactly when it preserves an invariant is met along a run
exactly when the invariant holds after each first part of it. -/
theorem along_exact {condition : State → Event → Prop} {invariant : State → Prop}
    (meets : ∀ state event, invariant state →
      (condition state event ↔ invariant (step state event)))
    (start : State) (initial : invariant start) (events : List Event) :
    Along step condition start events ↔
      ∀ first, first <+: events → invariant (run step start first) := by
  apply along_determines step (fun _ kept => kept) _ _ start initial
  · exact fun state event kept met => (meets state event kept).mp met
  · exact fun state event kept next => (meets state event kept).mpr next

end Pyrometer.Runs
