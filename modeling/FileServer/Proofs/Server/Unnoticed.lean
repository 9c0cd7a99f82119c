import FileServer.Proofs.Kernel.Pipes
import FileServer.Proofs.Server.Calls

/-!
# What the wake-up pipe does not notice

Of all that the loop and the workers do for clients the wake-up pipe notices nothing
(`Server.Bypasses`): the descriptors that are registered, armed and closed are those of connections,
behind which there are streams. Only to empty the pipe is a task about it.
-/

namespace FileServer

/-- The wake-up pipe notices nothing of the calls that are made for clients: they are about
descriptors with streams behind them, and the ends of the pipe are none. -/
theorem Kernel.covers_bypasses : Kernel.CoversCalls Kernel.Bypasses where
  refl := .refl
  trans := .trans
  putWire := bypasses_putWire
  locate := bypasses_locate
  close := bypasses_close_stream
  discard := bypasses_discard
  pollAdd hd := bypasses_pollAdd (not_isPipe_of_streamOf? hd)
  pollModify hd := bypasses_pollModify (not_isPipe_of_streamOf? hd)

namespace Server

variable {s t : Server} {rest : List Event} {task : Task}

/-- A step that is noticed neither by the wake-up pipe nor by those who request a stop. -/
structure Bypasses (s t : Server) : Prop where
  out : t.wakerOut = s.wakerOut
  into : t.wakerIn = s.wakerIn
  stop : t.stop = s.stop
  kernel : s.hub.kernel.Bypasses t.hub.kernel

namespace Orderly

/-- What the loop does at a task, unless it empties the wake-up pipe. -/
theorem bypasses_task (hs : s.Orderly) (hstage : s.stage = .batch rest task)
    (hdrain : task ≠ .drain)
    (choice : Nat) : s.Bypasses (s.afterTask choice rest task) := by
  have hkernel : s.hub.kernel.Bypasses (s.afterTask choice rest task).hub.kernel := by
    by_cases haccept : task = .accept
    · subst haccept
      have haccept := Kernel.bypasses_accept s.hub.kernel s.listener
      simp only [afterTask, doTask]
      split <;> next heq =>
        rw [heq] at haccept
        exact haccept
    · exact hs.covers_task Kernel.covers_bypasses hstage haccept hdrain choice
  refine ⟨?_, ?_, ?_, hkernel⟩
  all_goals
    rw [afterTask, doTask_eq]
    rfl

/-- What a worker does. -/
theorem bypasses_worker (hs : s.Orderly) {i : Nat} (hstep : s.workerStep i = some t) :
    s.Bypasses t := by
  refine ⟨?_, ?_, ?_, hs.covers_worker Kernel.covers_bypasses hstep⟩
  all_goals rw [workerStep_eq hstep]

end Orderly

end Server

end FileServer
