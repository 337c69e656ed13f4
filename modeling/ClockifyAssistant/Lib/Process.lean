/-!
Cooperative processes over a shared world.
A process performs one operation at a time. An operation may suspend its
process; between two suspensions nothing else runs. A server keeps a pool of
suspended processes, loses all of them when it crashes, and restarts from the
durable world.
-/
namespace ClockifyAssistant.Lib

inductive Proc (Op : Type) (Res : Op → Type) (α : Type) : Type
  | ret (a : α)
  | call (o : Op) (next : Res o → Proc Op Res α)

namespace Proc

variable {Op : Type} {Res : Op → Type} {α β γ : Type}

def bind : Proc Op Res α → (α → Proc Op Res β) → Proc Op Res β
  | ret a, f => f a
  | call o next, f => call o fun r => (next r).bind f

instance : Monad (Proc Op Res) where
  pure := ret
  bind := bind

def perform (o : Op) : Proc Op Res (Res o) := call o ret

end Proc

/-- What an operation does, given what the environment decides while it runs. -/
structure Machine (Op : Type) (Res : Op → Type) where
  World : Type
  Env : Type
  exec : (o : Op) → Env → World → Res o × World
  suspends : Op → Bool

structure Server (Op : Type) (Res : Op → Type) extends Machine Op Res where
  Request : Type
  Response : Type
  handler : Request → Proc Op Res Response
  /-- The world once recovery has run; `none` when recovery itself fails. -/
  restart : Env → World → Option World

namespace Server

variable {Op : Type} {Res : Op → Type} (M : Server Op Res)

structure Thread where
  request : M.Request
  body : Proc Op Res M.Response

structure Config where
  world : M.World
  parked : List M.Thread
  active : Option M.Thread
  answered : List (M.Request × M.Response)
  up : Bool

inductive Event
  | accept (request : M.Request)
  | perform (env : M.Env)
  | resume (index : Nat) (env : M.Env)
  | crash
  | boot (env : M.Env)

variable {M}

def initial (w : M.World) : M.Config := ⟨w, [], none, [], true⟩

/-- Park a process at a suspending operation, answer at its end, else keep running it. -/
def Config.schedule (c : M.Config) (t : M.Thread) : M.Config :=
  match t.body with
  | .ret a => { c with active := none, answered := c.answered ++ [(t.request, a)] }
  | .call o _ =>
      if M.suspends o then { c with active := none, parked := c.parked ++ [t] }
      else { c with active := some t }

def Config.advance (c : M.Config) (t : M.Thread) (env : M.Env) : M.Config :=
  match t.body with
  | .ret _ => c.schedule t
  | .call o next =>
      let r := M.exec o env c.world
      { c with world := r.2 }.schedule { t with body := next r.1 }

def step (c : M.Config) : M.Event → Option M.Config
  | .accept request =>
      if c.up && c.active.isNone then some (c.schedule ⟨request, M.handler request⟩) else none
  | .perform env => c.active.map fun t => c.advance t env
  | .resume index env =>
      if c.active.isNone then
        (c.parked[index]?).map fun t => { c with parked := c.parked.eraseIdx index }.advance t env
      else none
  | .crash => some { c with parked := [], active := none, up := false }
  | .boot env =>
      if c.up then none
      else (M.restart env c.world).map fun w =>
        { c with world := w, parked := [], active := none, up := true }

def Thread.next? (t : M.Thread) : Option Op :=
  match t.body with
  | .ret _ => none
  | .call o _ => some o

/-- The operation an event performs, when it performs one. -/
def operation? (c : M.Config) : M.Event → Option (Op × M.Env)
  | .perform env => (c.active.bind Thread.next?).map fun o => (o, env)
  | .resume index env => (c.parked[index]?.bind Thread.next?).map fun o => (o, env)
  | _ => none

def run (c : M.Config) : List M.Event → Option M.Config
  | [] => some c
  | e :: es => (step c e).bind fun c' => run c' es

inductive Reaches (A : M.Config → M.Event → Prop) (c : M.Config) : M.Config → Prop
  | refl : Reaches A c c
  | tail {c' c'' : M.Config} {e : M.Event} :
      Reaches A c c' → A c' e → step c' e = some c'' → Reaches A c c''

theorem Reaches.trans {A : M.Config → M.Event → Prop} {c c' c'' : M.Config}
    (h : Reaches A c c') (h' : Reaches A c' c'') : Reaches A c c'' := by
  induction h' with
  | refl => exact h
  | tail _ ha hstep ih => exact ih.tail ha hstep

theorem Reaches.mono {A B : M.Config → M.Event → Prop} {c c' : M.Config}
    (hAB : ∀ c e, A c e → B c e) (h : Reaches A c c') : Reaches B c c' := by
  induction h with
  | refl => exact .refl
  | tail _ ha hstep ih => exact ih.tail (hAB _ _ ha) hstep

theorem reaches_of_run {c c' : M.Config} {es : List M.Event} (h : run c es = some c') :
    Reaches (fun _ _ => True) c c' := by
  induction es generalizing c with
  | nil =>
    cases h
    exact .refl
  | cons e es ih =>
    obtain ⟨c₁, hstep, hrest⟩ := Option.bind_eq_some_iff.mp h
    exact (Reaches.refl.tail trivial hstep).trans (ih hrest)

/-- A run whose events all pass a check. -/
def runIf (p : M.Config → M.Event → Bool) (c : M.Config) : List M.Event → Option M.Config
  | [] => some c
  | e :: es => if p c e then (step c e).bind fun c' => runIf p c' es else none

theorem reaches_of_runIf {A : M.Config → M.Event → Prop} {p : M.Config → M.Event → Bool}
    (hp : ∀ c e, p c e = true → A c e) {c c' : M.Config} {es : List M.Event}
    (h : runIf p c es = some c') : Reaches A c c' := by
  induction es generalizing c with
  | nil =>
    cases h
    exact .refl
  | cons e es ih =>
    rw [runIf] at h
    split at h
    · rename_i hpass
      obtain ⟨c₁, hstep, hrest⟩ := Option.bind_eq_some_iff.mp h
      exact (Reaches.refl.tail (hp c e hpass) hstep).trans (ih hrest)
    · cases h

end Server

end ClockifyAssistant.Lib
