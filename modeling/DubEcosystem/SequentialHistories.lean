import DubEcosystem.SequentialPrograms

/-!
# Sessions with a history

What an operation may do can depend on what others did before, also where the world
keeps no trace of it.  A recording machine puts the events of each answered call in
front of a history.  Recording changes nothing: a recorded session is a session, and
every session can be recorded.
-/

namespace DubEcosystem.SequentialPrograms

open Relation Interleaving PortPrograms

variable {P : Ports} {Err World Op Event α : Type}

abbrev EventsOf (S : Signature) (Event : Type) :=
  (request : S.Call) → S.Answer request → List Event

def recording {S : Signature} (machine : Machine S World) (events : EventsOf S Event) :
    Machine S (World × List Event) where
  exec request world :=
    (machine.exec request world.1).map fun outcome =>
      (outcome.1, outcome.2, events request outcome.1 ++ world.2)
  observe request answer world :=
    (machine.observe request answer world.1, events request answer ++ world.2)

variable {S : Signature} {machine : Machine S World} {events : EventsOf S Event}

theorem recording_answers {request : S.Call} {before after : World × List Event}
    {answer : S.Answer request} :
    (recording machine events).Answers request before answer after ↔
      machine.Answers request before.1 answer after.1 ∧
        after.2 = events request answer ++ before.2 := by
  obtain ⟨world, history⟩ := before
  obtain ⟨final, later⟩ := after
  cases executes : machine.exec request world with
  | none => simp [Machine.Answers, recording, executes]
  | some outcome =>
    obtain ⟨given, moved⟩ := outcome
    simp only [Machine.Answers, recording, executes, Option.map_some, Prod.mk.injEq]
    constructor
    · rintro ⟨rfl, rfl, rfl⟩
      exact ⟨⟨rfl, rfl⟩, rfl⟩
    · rintro ⟨⟨rfl, rfl⟩, rfl⟩
      exact ⟨rfl, rfl, rfl⟩

section Sessions

variable {service : Service P Err World Op} {events : Op → EventsOf (P.signature Err) Event}
  {allowed : Op → World × List Event → Prop} {before after : World × List Event}

def Service.RecordedSession (service : Service P Err World Op)
    (events : Op → EventsOf (P.signature Err) Event)
    (allowed : Op → World × List Event → Prop) :
    World × List Event → World × List Event → Prop :=
  ReflTransGen fun before after => ∃ op, allowed op before ∧ ∃ outcome,
    Reaches (recording service.machine (events op)) (service.program op).run before outcome after

theorem Service.RecordedSession.keeps {inv : World × List Event → Prop}
    (session : service.RecordedSession events allowed before after)
    (holds : inv before)
    (step : ∀ op start final outcome, inv start → allowed op start →
      Reaches (recording service.machine (events op)) (service.program op).run start
        outcome final → inv final) :
    inv after := by
  induction session with
  | refl => exact holds
  | tail _ last ih =>
    obtain ⟨op, isAllowed, outcome, reaches⟩ := last
    exact step op _ _ outcome ih isAllowed reaches

/-- Where one recorded operation ends with the answers of `outside`. -/
def Service.recordedAfter (service : Service P Err World Op)
    (events : Op → EventsOf (P.signature Err) Event)
    (outside : (request : P.Call) → Except Err (P.Result request)) (op : Op)
    (world : World × List Event) : World × List Event :=
  (run (recording service.machine (events op)) outside (service.program op).run world).2

theorem recordedSession_recordedAfter (service : Service P Err World Op)
    (events : Op → EventsOf (P.signature Err) Event)
    (outside : (request : P.Call) → Except Err (P.Result request)) (op : Op)
    (world : World × List Event) :
    service.RecordedSession events anyOperation world
      (service.recordedAfter events outside op world) := by
  have reaches := reaches_run (recording service.machine (events op)) outside
    (service.program op).run world
  exact .single ⟨op, trivial, _, reaches⟩

end Sessions

end DubEcosystem.SequentialPrograms
