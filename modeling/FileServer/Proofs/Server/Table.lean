import FileServer.Proofs.Server.Actions
import FileServer.Proofs.Server.Rounds

/-!
# What a step does to the table

The table of connections, and the count of those that are open, change in few ways: a connection is
visited to read, to parse, to answer or to resume, a client is entered, or a connection is closed.
`Server.TableStep` lists them, and every action of a server is one of these
(`Server.tableStep_perform`). What holds of the slots, and of the count, is proved for each of these
ways and not for each action.
-/

namespace FileServer

/-- The table of connections, and the count of those that are open. -/
structure Table where
  /-- the slots that have been used -/
  slots : DescriptorMap Connection
  /-- how many connections are open -/
  live : UInt64
  /-- how many slots there are -/
  capacity : Nat
  /-- how many connections may be open -/
  limit : Nat

/-- The table of a hub. -/
def Hub.table (hub : Hub) : Table := ⟨hub.slots, hub.live, hub.capacity, hub.limit⟩

namespace Server

variable {s t : Server} {a : Action}

/-- What a step of a server does to the table. -/
inductive TableStep (a : Action) (s : Server) (hub : Hub) : Prop
  /-- nothing -/
  | rest : hub.table = s.hub.table → TableStep a s hub
  /-- what has arrived for a connection is read -/
  | read (h : Handle) :
    hub.table = (s.hub.visit h (Hub.onWire Connection.readAll)).2.table → TableStep a s hub
  /-- a request is parsed -/
  | parse (h : Handle) {α : Type} {f : Connection → Kernel → α × Connection × Kernel} :
    (∀ c k, (f c k).2 = (c.parse.2, k)) → hub.table = (s.hub.visit h f).2.table → TableStep a s hub
  /-- a request is answered -/
  | answer (h : Handle) (outcome : Request.Outcome) :
    hub.table = (s.hub.visit h (Hub.answer s.hub.root outcome)).2.table → TableStep a s hub
  /-- a response is resumed -/
  | resume (h : Handle) :
    hub.table = (s.hub.runStep h (Hub.onWire Connection.resume)).2.table → TableStep a s hub
  /-- a connection is closed -/
  | close (h : Handle) : hub.table = (s.hub.close h).table → TableStep a s hub
  /-- a client is entered into the table -/
  | enter {choice : Nat} {rest : List Event} {d : Int} {peer : Option SocketAddress} :
    a = .loop choice → s.stage = .batch rest (.enter d peer) →
    hub.table = (s.hub.enter d peer).2.table → TableStep a s hub

theorem table_closeWaker (s : Server) : s.closeWaker.hub.table = s.hub.table := by
  rw [closeWaker]
  split <;> rfl

/-- A server that leaves takes its table along. -/
theorem table_leave (s : Server) (stage : Stage) : (s.leave stage).hub.table = s.hub.table :=
  table_closeWaker _

/-- To start to serve does nothing to it either: slots are used as clients come. -/
theorem tableStep_serve (s : Server) : TableStep .serve s s.serve.hub := by
  rcases serve_cases s with ⟨k, failure, heq⟩ | ⟨k, poll, heq⟩
  · rw [heq]
    exact .rest (table_leave ..)
  · rw [heq]
    exact .rest rfl

/-- What a task does to the table. -/
theorem tableStep_task {rest : List Event} {task : Task} (hstage : s.stage = .batch rest task)
    (choice : Nat) : TableStep (.loop choice) s (s.afterTask choice rest task).hub := by
  rw [afterTask]
  cases task with
  | next => exact .rest rfl
  | accept =>
    simp only [doTask]
    split <;> exact .rest rfl
  | consider d peer => exact .rest rfl
  | enter d peer =>
    simp only [doTask]
    split
    · next hub heq =>
      exact .enter rfl hstage (by rw [heq]; rfl)
    · next hub heq =>
      exact .enter rfl hstage (by rw [heq]; rfl)
  | refuse d => exact .rest rfl
  | register h =>
    simp only [doTask, Hub.register]
    split
    · next heq =>
      obtain ⟨-, rfl⟩ := Prod.mk.inj heq
      exact .rest rfl
    · next heq =>
      obtain ⟨-, rfl⟩ := Prod.mk.inj heq
      exact .rest rfl
  | giveUp h => exact .close h rfl
  | read h => exact .read h rfl
  | submit h =>
    simp only [doTask]
    split <;> exact .rest rfl
  | announce => exact .rest rfl
  | resume h => exact .resume h rfl
  | rearm h interest =>
    simp only [doTask, Hub.rearm]
    split
    · next heq =>
      obtain ⟨-, rfl⟩ := Prod.mk.inj heq
      exact .rest rfl
    · next heq =>
      obtain ⟨-, rfl⟩ := Prod.mk.inj heq
      exact .rest rfl
  | close h => exact .close h rfl
  | drain =>
    simp only [doTask]
    split <;> exact .rest rfl

/-- Of the steps of the loop only tasks, and the end, do anything to the table. -/
theorem tableStep_loopStep {choice : Nat} (hstep : s.loopStep choice = some t) :
    TableStep (.loop choice) s t.hub := by
  cases loopStep_cases hstep with
  | work hstage => exact tableStep_task hstage choice
  | spawn =>
    rw [spawnWorker]
    split <;> exact .rest rfl
  | addListener =>
    rw [addStanding]
    split <;> exact .rest rfl
  | addWaker =>
    rw [addStanding]
    split <;> exact .rest rfl
  | poll =>
    rw [beginWait]
    split <;> exact .rest rfl
  | @close slot => exact .close ⟨slot⟩ rfl
  | leave => exact .rest (table_leave ..)
  | _ => exact .rest rfl

/-- **What a job does to the table**: its request is parsed or answered, its connection armed or
closed. -/
theorem tableStep_jobStep {i : Nat} {job : Job} (hstep : s.jobStep i job = some t) :
    TableStep (.worker i) s t.hub := by
  cases job with
  | parse h =>
    simp only [jobStep] at hstep
    split at hstep
    · cases hstep
    · split at hstep
      · obtain rfl := Option.some.inj hstep
        exact .rest rfl
      · next heq =>
        obtain rfl := Option.some.inj hstep
        exact .parse h (fun _ _ => rfl) (by rw [heq]; rfl)
  | answer h outcome awaited =>
    simp only [jobStep] at hstep
    split at hstep
    · cases hstep
    · split at hstep
      · obtain rfl := Option.some.inj hstep
        exact .rest rfl
      · next heq =>
        obtain rfl := Option.some.inj hstep
        exact .answer h outcome (by rw [heq]; rfl)
  | close h =>
    obtain rfl := Option.some.inj hstep
    exact .close h rfl
  | rearm h interest =>
    simp only [jobStep, Hub.rearm] at hstep
    split at hstep
    · next heq =>
      obtain ⟨-, rfl⟩ := Prod.mk.inj heq
      obtain rfl := Option.some.inj hstep
      exact .rest rfl
    · next heq =>
      obtain ⟨-, rfl⟩ := Prod.mk.inj heq
      obtain rfl := Option.some.inj hstep
      exact .rest rfl
  | giveUp h =>
    simp only [jobStep] at hstep
    split at hstep
    · cases hstep
    · obtain rfl := Option.some.inj hstep
      exact .close h rfl

/-- **Every action does one of the listed things to the table.** What clients do is nothing to
it. -/
theorem tableStep_perform (hstep : s.perform? a = some t) : TableStep a s t.hub := by
  cases perform?_cases hstep with
  | serve => exact tableStep_serve s
  | drop => exact .rest (table_leave ..)
  | loop hloop => exact tableStep_loopStep hloop
  | worker hworker =>
    simp only [workerStep] at hworker
    split at hworker
    · exact tableStep_jobStep hworker
    · obtain ⟨-, -, rfl⟩ := Option.map_eq_some_iff.mp hworker
      exact .rest rfl
  | requestStop => exact .rest rfl
  | wake => exact .rest rfl
  | releaseHandle => exact .rest rfl
  | closeHandle => exact .rest (table_closeWaker _)
  | connect => exact .rest rfl
  | client => exact .rest rfl
  | openPipe => exact .rest rfl

end Server

end FileServer
