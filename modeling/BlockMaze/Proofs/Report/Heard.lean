import BlockMaze.Game.Session

/-! What listeners hear of all that is told: the events and the boards, each in the order they came in.
Records of the journal do not reach them. -/
namespace BlockMaze

def Signal.event? : Signal → Option Event
  | .event news => some news
  | _ => none

def Signal.board? : Signal → Option Snapshot
  | .board shown => some shown
  | _ => none

def eventsIn (signals : List Signal) : List Event := signals.filterMap Signal.event?

def boardsIn (signals : List Signal) : List Snapshot := signals.filterMap Signal.board?

@[simp] theorem eventsIn_append (signals others : List Signal) :
    eventsIn (signals ++ others) = eventsIn signals ++ eventsIn others := List.filterMap_append

@[simp] theorem boardsIn_append (signals others : List Signal) :
    boardsIn (signals ++ others) = boardsIn signals ++ boardsIn others := List.filterMap_append

/-- Who is deaf to the journal hears the same of a run inside a session and outside. -/
theorem filterMap_relayed {β : Type} {hears : Signal → Option β} (deaf : ∀ record, hears (.log record) = none)
    (signals : List Signal) : (signals.flatMap Signal.relayed).filterMap hears = signals.filterMap hears := by
  induction signals with
  | nil => rfl
  | cons signal signals ih =>
    rw [List.flatMap_cons, List.filterMap_append, ih, ← List.filterMap_append]
    rcases signal with (_ | _ | _ | _ | _ | _) | _ | _ <;> simp [Signal.relayed, deaf]

theorem eventsIn_relayed (signals : List Signal) :
    eventsIn (signals.flatMap Signal.relayed) = eventsIn signals := filterMap_relayed (fun _ => rfl) signals

theorem boardsIn_relayed (signals : List Signal) :
    boardsIn (signals.flatMap Signal.relayed) = boardsIn signals := filterMap_relayed (fun _ => rfl) signals

theorem heard_of_logs {signals : List Signal} (logs : ∀ signal ∈ signals, signal.isLog = true) :
    eventsIn signals = [] ∧ boardsIn signals = [] := by
  refine ⟨List.filterMap_eq_nil_iff.mpr fun signal member => ?_,
    List.filterMap_eq_nil_iff.mpr fun signal member => ?_⟩ <;>
  · have log := logs signal member
    cases signal <;> first | rfl | cases log

def OneNotice (signals : List Signal) : Prop :=
  ∃ notice, eventsIn signals = [.notice notice] ∧ boardsIn signals = []

theorem OneNotice.after_logs {signals : List Signal} (told : OneNotice signals) {early : List Signal}
    (logs : ∀ signal ∈ early, signal.isLog = true) : OneNotice (early ++ signals) := by
  obtain ⟨notice, event, no_board⟩ := told
  obtain ⟨no_events, no_boards⟩ := heard_of_logs logs
  exact ⟨notice, by rw [eventsIn_append, no_events, event, List.nil_append],
    by rw [boardsIn_append, no_boards, no_board, List.nil_append]⟩

end BlockMaze
