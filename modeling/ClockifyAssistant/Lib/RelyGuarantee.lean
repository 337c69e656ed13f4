import ClockifyAssistant.Lib.Process

/-!
Rely–guarantee reasoning for cooperative processes.
`Safe` follows a program and asks, at each operation it may issue, for that
operation's precondition; across a suspension the world may move as the rely
relation allows. `Sound.invariant` then reduces a fact about all interleavings
and all crash points to one proof per program and one per operation.
-/
namespace ClockifyAssistant.Lib

variable {Op : Type} {Res : Op → Type} {α β ε : Type}

structure Spec (M : Server Op Res) where
  Inv : M.World → Prop
  Rely : M.World → M.World → Prop
  Pre : Op → M.World → Prop
  Allowed : Op → M.Env → M.World → Prop

variable {M : Server Op Res} (S : Spec M)

open Server

def Safe : Proc Op Res α → (α → M.World → Prop) → M.World → Prop
  | .ret a, Q, w => Q a w
  | .call o next, Q, w =>
      ∀ w', (if M.suspends o then S.Inv w' ∧ S.Rely w w' else w' = w) →
        S.Pre o w' ∧ ∀ env, S.Allowed o env w' →
          Safe (next (M.exec o env w').1) Q (M.exec o env w').2

variable {S}

theorem Safe.mono {p : Proc Op Res α} {Q Q' : α → M.World → Prop}
    (hQ : ∀ a w, Q a w → Q' a w) : ∀ {w}, Safe S p Q w → Safe S p Q' w := by
  induction p with
  | ret a =>
    intro w h
    exact hQ a w h
  | call o next ih =>
    intro w h w' hw'
    obtain ⟨hpre, hnext⟩ := h w' hw'
    exact ⟨hpre, fun env henv => ih _ (hnext env henv)⟩

theorem safe_bind (p : Proc Op Res α) (f : α → Proc Op Res β) (Q : β → M.World → Prop) :
    ∀ w, Safe S (p.bind f) Q w ↔ Safe S p (fun a w' => Safe S (f a) Q w') w := by
  induction p with
  | ret a => exact fun w => Iff.rfl
  | call o next ih => simp only [Proc.bind, Safe, ih, implies_true]

theorem safe_call (o : Op) (next : Res o → Proc Op Res α) (Q : α → M.World → Prop)
    {w : M.World} (ho : M.suspends o = false) (hpre : S.Pre o w)
    (hnext : ∀ env, S.Allowed o env w → Safe S (next (M.exec o env w).1) Q (M.exec o env w).2) :
    Safe S (.call o next) Q w := by
  intro w' hw'
  simp only [ho, Bool.false_eq_true, ↓reduceIte] at hw'
  subst hw'
  exact ⟨hpre, hnext⟩

theorem safe_await (o : Op) (next : Res o → Proc Op Res α) (Q : α → M.World → Prop)
    {w : M.World} (ho : M.suspends o = true)
    (hnext : ∀ w', S.Inv w' → S.Rely w w' → S.Pre o w' ∧ ∀ env, S.Allowed o env w' →
      Safe S (next (M.exec o env w').1) Q (M.exec o env w').2) : Safe S (.call o next) Q w := by
  intro w' hw'
  simp only [ho, ↓reduceIte] at hw'
  exact hnext w' hw'.1 hw'.2

/-- What one proof per program and one per operation have to establish. -/
structure Sound (S : Spec M) : Prop where
  refl : ∀ w, S.Rely w w
  trans : ∀ {w w' w''}, S.Rely w w' → S.Rely w' w'' → S.Rely w w''
  exec : ∀ o env w, S.Inv w → S.Pre o w → S.Allowed o env w →
    S.Inv (M.exec o env w).2 ∧ S.Rely w (M.exec o env w).2
  handler : ∀ request w, S.Inv w → Safe S (M.handler request) (fun _ _ => True) w
  restart : ∀ env w w', S.Inv w → M.restart env w = some w' → S.Inv w'

namespace Sound

open Server

/-- A parked process waits at a suspending operation. -/
def Waiting (S : Spec M) (w : M.World) (t : M.Thread) : Prop :=
  ∃ o next, t.body = .call o next ∧ M.suspends o = true ∧ Safe S (.call o next) (fun _ _ => True) w

structure Ready (S : Spec M) (c : M.Config) : Prop where
  inv : S.Inv c.world
  active : ∀ t, c.active = some t → Safe S t.body (fun _ _ => True) c.world
  parked : ∀ t ∈ c.parked, Waiting S c.world t

/-- An event performs operations only where the specification allows them. -/
def AllowedEvent (S : Spec M) (c : M.Config) (e : M.Event) : Prop :=
  ∀ o env, operation? c e = some (o, env) → S.Allowed o env c.world

variable {t : M.Thread}

theorem Waiting.safe {w : M.World} (h : Waiting S w t) : Safe S t.body (fun _ _ => True) w := by
  obtain ⟨o, next, hbody, _, hsafe⟩ := h
  rw [hbody]
  exact hsafe

theorem Waiting.rely (hS : Sound S) {w w' : M.World} (ht : Waiting S w t)
    (hrely : S.Rely w w') : Waiting S w' t := by
  obtain ⟨o, next, hbody, ho, hsafe⟩ := ht
  refine ⟨o, next, hbody, ho, ?_⟩
  intro w'' hw''
  simp only [ho, ↓reduceIte] at hw''
  exact hsafe w'' (by simpa only [ho, ↓reduceIte] using ⟨hw''.1, hS.trans hrely hw''.2⟩)

theorem ready_initial {w : M.World} (hw : S.Inv w) : Ready S (initial w) :=
  ⟨hw, by simp [initial], by simp [initial]⟩

variable {c : M.Config}

theorem ready_schedule (hinv : S.Inv c.world) (hparked : ∀ t ∈ c.parked, Waiting S c.world t)
    (ht : Safe S t.body (fun _ _ => True) c.world) : Ready S (c.schedule t) := by
  unfold Config.schedule
  cases hbody : t.body with
  | ret a => exact ⟨hinv, by simp, hparked⟩
  | call o next =>
    rw [hbody] at ht
    by_cases ho : M.suspends o = true
    · simp only [ho, ↓reduceIte]
      refine ⟨hinv, by simp, ?_⟩
      intro t' ht'
      rcases List.mem_append.mp ht' with hmem | hmem
      · exact hparked t' hmem
      · obtain rfl := List.mem_singleton.mp hmem
        exact ⟨o, next, hbody, ho, ht⟩
    · simp only [ho, Bool.false_eq_true, ↓reduceIte]
      refine ⟨hinv, ?_, hparked⟩
      intro t' ht'
      cases ht'
      rw [hbody]
      exact ht

/-- Any safe process meets its next operation's precondition where it stands. -/
theorem pre_of_safe (hS : Sound S) {o : Op} {next : Res o → Proc Op Res α}
    {Q : α → M.World → Prop} {w : M.World} (hinv : S.Inv w) (h : Safe S (.call o next) Q w) :
    S.Pre o w ∧ ∀ env, S.Allowed o env w →
      Safe S (next (M.exec o env w).1) Q (M.exec o env w).2 := by
  refine h w ?_
  by_cases ho : M.suspends o = true <;> simp [ho, hinv, hS.refl]

theorem ready_advance (hS : Sound S) {env : M.Env}
    (hinv : S.Inv c.world) (hparked : ∀ t ∈ c.parked, Waiting S c.world t)
    (ht : Safe S t.body (fun _ _ => True) c.world)
    (hallowed : ∀ o, t.next? = some o → S.Allowed o env c.world) : Ready S (c.advance t env) := by
  unfold Config.advance
  cases hbody : t.body with
  | ret a => exact ready_schedule hinv hparked ht
  | call o next =>
    rw [hbody] at ht
    have ho := hallowed o (by simp [Thread.next?, hbody])
    obtain ⟨hpre, hnext⟩ := pre_of_safe hS hinv ht
    have hstep := hS.exec o env c.world hinv hpre ho
    exact ready_schedule hstep.1 (fun t' ht' => (hparked t' ht').rely hS hstep.2) (hnext env ho)

theorem ready_step (hS : Sound S) {c c' : M.Config} {e : M.Event} (h : Ready S c)
    (ha : AllowedEvent S c e) (hstep : step c e = some c') : Ready S c' := by
  cases e with
  | accept request =>
    simp only [step] at hstep
    split at hstep
    · cases hstep
      exact ready_schedule h.inv h.parked (hS.handler request c.world h.inv)
    · cases hstep
  | perform env =>
    obtain ⟨t, ht, rfl⟩ := Option.map_eq_some_iff.mp hstep
    exact ready_advance hS h.inv h.parked (h.active t ht)
      fun o ho => ha o env (by simp [operation?, ht, ho])
  | resume index env =>
    simp only [step] at hstep
    split at hstep
    · obtain ⟨t, ht, rfl⟩ := Option.map_eq_some_iff.mp hstep
      exact ready_advance (c := { c with parked := c.parked.eraseIdx index }) hS h.inv
        (fun t' ht' => h.parked t' (List.mem_of_mem_eraseIdx ht'))
        (h.parked t (List.mem_of_getElem? ht)).safe
        fun o ho => ha o env (by simp [operation?, ht, ho])
    · cases hstep
  | crash =>
    cases hstep
    exact ⟨h.inv, by simp, by simp⟩
  | boot env =>
    simp only [step] at hstep
    split at hstep
    · cases hstep
    · obtain ⟨w, hw, rfl⟩ := Option.map_eq_some_iff.mp hstep
      exact ⟨hS.restart env c.world w h.inv hw, by simp, by simp⟩

theorem ready_reaches (hS : Sound S) {w : M.World} (hw : S.Inv w)
    (h : Reaches (AllowedEvent S) (initial w) c) : Ready S c := by
  induction h with
  | refl => exact ready_initial hw
  | tail _ ha hstep ih => exact ready_step hS ih ha hstep

/-- The invariant holds at every configuration of every run. -/
theorem invariant (hS : Sound S) {w : M.World} (hw : S.Inv w)
    (h : Reaches (AllowedEvent S) (initial w) c) : S.Inv c.world :=
  (ready_reaches hS hw h).inv

/-- Every operation a run performs meets its precondition. -/
theorem pre_of_operation (hS : Sound S) {e : M.Event} {o : Op} {env : M.Env}
    (h : Ready S c) (ho : operation? c e = some (o, env)) : S.Pre o c.world := by
  have hthread : ∀ t : M.Thread, t.next? = some o →
      Safe S t.body (fun _ _ => True) c.world → S.Pre o c.world := by
    intro t hnext hsafe
    cases hbody : t.body with
    | ret a => simp [Thread.next?, hbody] at hnext
    | call o' next =>
      rw [hbody] at hsafe
      obtain rfl : o' = o := by simpa [Thread.next?, hbody] using hnext
      exact (pre_of_safe hS h.inv hsafe).1
  cases e with
  | perform env' =>
    obtain ⟨o', ho', heq⟩ := Option.map_eq_some_iff.mp ho
    cases heq
    obtain ⟨t, ht, hnext⟩ := Option.bind_eq_some_iff.mp ho'
    exact hthread t hnext (h.active t ht)
  | resume index env' =>
    obtain ⟨o', ho', heq⟩ := Option.map_eq_some_iff.mp ho
    cases heq
    obtain ⟨t, ht, hnext⟩ := Option.bind_eq_some_iff.mp ho'
    exact hthread t hnext (h.parked t (List.mem_of_getElem? ht)).safe
  | accept request => cases ho
  | crash => cases ho
  | boot env' => cases ho

end Sound

/-- How one event moves the world: not at all, by one operation, or by a restart. -/
theorem Server.world_step {c c' : M.Config} {e : M.Event} (hstep : step c e = some c') :
    c'.world = c.world ∨
    (∃ o env, operation? c e = some (o, env) ∧ c'.world = (M.exec o env c.world).2) ∨
    (∃ env, e = .boot env ∧ M.restart env c.world = some c'.world) := by
  have hschedule : ∀ (c : M.Config) (t : M.Thread), (c.schedule t).world = c.world := by
    intro c t
    unfold Config.schedule
    split
    · rfl
    · split <;> rfl
  have hadvance : ∀ (c : M.Config) (t : M.Thread) (env : M.Env),
      (c.advance t env).world = c.world ∨ ∃ o, t.next? = some o ∧
        (c.advance t env).world = (M.exec o env c.world).2 := by
    intro c t env
    cases hbody : t.body with
    | ret a => exact .inl (by simp [Config.advance, hbody, hschedule])
    | call o next =>
      exact .inr ⟨o, by simp [Thread.next?, hbody], by simp [Config.advance, hbody, hschedule]⟩
  cases e with
  | accept request =>
    simp only [step] at hstep
    split at hstep
    · cases hstep
      exact .inl (hschedule _ _)
    · cases hstep
  | perform env =>
    obtain ⟨t, ht, rfl⟩ := Option.map_eq_some_iff.mp hstep
    rcases hadvance c t env with hsame | ⟨o, ho, hworld⟩
    · exact .inl hsame
    · exact .inr (.inl ⟨o, env, by simp [operation?, ht, ho], hworld⟩)
  | resume index env =>
    simp only [step] at hstep
    split at hstep
    · obtain ⟨t, ht, rfl⟩ := Option.map_eq_some_iff.mp hstep
      rcases hadvance { c with parked := c.parked.eraseIdx index } t env with hsame | ⟨o, ho, hworld⟩
      · exact .inl hsame
      · exact .inr (.inl ⟨o, env, by simp [operation?, ht, ho], hworld⟩)
    · cases hstep
  | crash =>
    cases hstep
    exact .inl rfl
  | boot env =>
    simp only [step] at hstep
    split at hstep
    · cases hstep
    · obtain ⟨w, hw, rfl⟩ := Option.map_eq_some_iff.mp hstep
      exact .inr (.inr ⟨env, rfl, hw⟩)

section Alone

/-- A process that runs by itself from one world to another, with one answer of the
environment to each of its operations. -/
def Server.play (M : Server Op Res) : Proc Op Res α → List M.Env → M.World → Option (α × M.World)
  | .ret a, [], w => some (a, w)
  | .ret _, _ :: _, _ => none
  | .call _ _, [], _ => none
  | .call o next, env :: envs, w => M.play (next (M.exec o env w).1) envs (M.exec o env w).2

/-- The world where a process is interrupted: it has performed as many operations as there
are answers. -/
def Server.interrupt (M : Server Op Res) : Proc Op Res α → List M.Env → M.World → M.World
  | .ret _, _, w => w
  | .call _ _, [], w => w
  | .call o next, env :: envs, w =>
      M.interrupt (next (M.exec o env w).1) envs (M.exec o env w).2

/-- What every operation does to the world, the rest of a run does from wherever the process
is interrupted. -/
theorem Server.interrupt_related {M : Server Op Res} {R : M.World → M.World → Prop}
    (hrefl : ∀ w, R w w) (htrans : ∀ {w w' w''}, R w w' → R w' w'' → R w w'')
    (hstep : ∀ o env w, R w (M.exec o env w).2) {p : Proc Op Res α} {envs : List M.Env}
    {w w' : M.World} {a : α} (hplay : M.play p envs w = some (a, w')) (n : Nat) :
    R (M.interrupt p (envs.take n) w) w' := by
  have hrun : ∀ {p : Proc Op Res α} {envs : List M.Env} {w : M.World},
      M.play p envs w = some (a, w') → R w w' := by
    intro p
    induction p with
    | ret b =>
      intro envs w hplay
      cases envs with
      | nil =>
        cases hplay
        exact hrefl _
      | cons env envs => cases hplay
    | call o next ih =>
      intro envs w hplay
      cases envs with
      | nil => cases hplay
      | cons env envs => exact htrans (hstep o env w) (ih _ hplay)
  induction p generalizing envs w n with
  | ret b => exact hrun hplay
  | call o next ih =>
    cases envs with
    | nil => cases hplay
    | cons env envs =>
      cases n with
      | zero => exact hrun (p := .call o next) hplay
      | succ n => exact ih _ hplay n

/-- The specification that asks for nothing. -/
def Spec.unguarded (M : Server Op Res) : Spec M where
  Inv _ := True
  Rely _ _ := True
  Pre _ _ := True
  Allowed _ _ _ := True

theorem Safe.play {M : Server Op Res} {p : Proc Op Res α} {Q : α → M.World → Prop}
    {envs : List M.Env} {w w' : M.World} {a : α} (hsuspends : ∀ o, M.suspends o = false)
    (h : Safe (Spec.unguarded M) p Q w) (hplay : M.play p envs w = some (a, w')) : Q a w' := by
  induction p generalizing envs w with
  | ret b =>
    cases envs with
    | nil =>
      cases hplay
      exact h
    | cons env envs => cases hplay
  | call o next ih =>
    cases envs with
    | nil => cases hplay
    | cons env envs =>
      have hnext := (h w (by simp [hsuspends])).2 env trivial
      exact ih _ hnext hplay

/-- Every operation that a process performs on the way meets `P`. -/
def Server.Along (M : Server Op Res) (P : Op → M.Env → M.World → Prop) :
    Proc Op Res α → List M.Env → M.World → Prop
  | .ret _, _, _ => True
  | .call _ _, [], _ => True
  | .call o next, env :: envs, w =>
      P o env w ∧ M.Along P (next (M.exec o env w).1) envs (M.exec o env w).2

theorem Server.Along.mono {M : Server Op Res} {P P' : Op → M.Env → M.World → Prop}
    {p : Proc Op Res α} {envs : List M.Env} {w : M.World} (h : M.Along P p envs w)
    (hP : ∀ o env w, P o env w → P' o env w) : M.Along P' p envs w := by
  induction p generalizing envs w with
  | ret a => trivial
  | call o next ih =>
    cases envs with
    | nil => trivial
    | cons env envs => exact ⟨hP o env w h.1, ih _ h.2⟩

def Server.decidableAlong (M : Server Op Res) (P : Op → M.Env → M.World → Prop)
    [∀ o env w, Decidable (P o env w)] :
    (p : Proc Op Res α) → (envs : List M.Env) → (w : M.World) → Decidable (M.Along P p envs w)
  | .ret _, _, _ => isTrue trivial
  | .call _ _, [], _ => isTrue trivial
  | .call o next, env :: envs, w =>
      have := M.decidableAlong P (next (M.exec o env w).1) envs (M.exec o env w).2
      inferInstanceAs (Decidable (_ ∧ _))

theorem Server.along_replicate {M : Server Op Res} {P : Op → M.Env → M.World → Prop}
    {env : M.Env} (h : ∀ o w, P o env w) (p : Proc Op Res α) (n : Nat) (w : M.World) :
    M.Along P p (List.replicate n env) w := by
  induction p generalizing n w with
  | ret a => trivial
  | call o next ih =>
    cases n with
    | zero => trivial
    | succ n => exact ⟨h o w, ih _ n _⟩

section Allowed

variable {M : Server Op Res} {S : Spec M} {p : Proc Op Res α} {Q : α → M.World → Prop}
  {envs : List M.Env} {w w' : M.World} {a : α}

/-- A safe process that is given allowed answers meets every precondition. -/
theorem Safe.along (hsuspends : ∀ o, M.suspends o = false) (h : Safe S p Q w)
    (hallowed : M.Along S.Allowed p envs w) : M.Along (fun o _ w => S.Pre o w) p envs w := by
  induction p generalizing envs w with
  | ret b => trivial
  | call o next ih =>
    cases envs with
    | nil => trivial
    | cons env envs =>
      obtain ⟨hpre, hnext⟩ := h w (by simp [hsuspends])
      exact ⟨hpre, ih _ (hnext env hallowed.1) hallowed.2⟩

theorem Safe.play_allowed (hsuspends : ∀ o, M.suspends o = false) (h : Safe S p Q w)
    (hallowed : M.Along S.Allowed p envs w) (hplay : M.play p envs w = some (a, w')) : Q a w' := by
  induction p generalizing envs w with
  | ret b =>
    cases envs with
    | nil =>
      cases hplay
      exact h
    | cons env envs => cases hplay
  | call o next ih =>
    cases envs with
    | nil => cases hplay
    | cons env envs =>
      have hnext := (h w (by simp [hsuspends])).2 env hallowed.1
      exact ih _ hnext hallowed.2 hplay

/-- Where the operations keep an invariant, it holds wherever a process is interrupted. -/
theorem Safe.interrupt {I : M.World → Prop} (hsuspends : ∀ o, M.suspends o = false)
    (hstep : ∀ o env w, S.Pre o w → S.Allowed o env w → I (M.exec o env w).2)
    (h : Safe S p Q w) (hallowed : M.Along S.Allowed p envs w) (hw : I w) :
    I (M.interrupt p envs w) := by
  induction p generalizing envs w with
  | ret b => exact hw
  | call o next ih =>
    cases envs with
    | nil => exact hw
    | cons env envs =>
      obtain ⟨hpre, hnext⟩ := h w (by simp [hsuspends])
      exact ih _ (hnext env hallowed.1) hallowed.2 (hstep o env w hpre hallowed.1)

end Allowed

section Watched

variable {M : Server Op Res} {P : Op → M.Env → M.World → Prop} {p : Proc Op Res α}
  {envs : List M.Env} {w w' : M.World} {a : α}

/-- The server that also notes whether every operation so far met `P`. -/
def Server.watched (M : Server Op Res) (P : Op → M.Env → M.World → Prop) : Server Op Res where
  World := M.World × Prop
  Env := M.Env
  exec o env w := ((M.exec o env w.1).1, (M.exec o env w.1).2, w.2 ∧ P o env w.1)
  suspends := M.suspends
  Request := M.Request
  Response := M.Response
  handler := M.handler
  restart env w := (M.restart env w.1).map fun w' => (w', w.2)

variable {S : Spec (M.watched P)} {Q : α → M.World × Prop → Prop} {kept : Prop}

/-- What is proved of the watched server speaks of a run and of whether `P` held along it. -/
theorem Safe.play_watched (hsuspends : ∀ o, M.suspends o = false)
    (hallowed : ∀ o env w, S.Allowed o env w) (h : Safe S p Q (w, kept))
    (hplay : M.play p envs w = some (a, w')) :
    ∃ kept', (kept' ↔ kept ∧ M.Along P p envs w) ∧ Q a (w', kept') := by
  induction p generalizing envs w kept with
  | ret b =>
    cases envs with
    | nil =>
      cases hplay
      refine ⟨kept, ?_, h⟩
      simp [Server.Along]
    | cons env envs => cases hplay
  | call o next ih =>
    cases envs with
    | nil => cases hplay
    | cons env envs =>
      have hnext := (h (w, kept) (by simp [Server.watched, hsuspends])).2 env
        (hallowed o env (w, kept))
      obtain ⟨kept', hkept', hQ⟩ := ih _ hnext hplay
      refine ⟨kept', ?_, hQ⟩
      rw [hkept', and_assoc]
      rfl

/-- Where the operations keep an invariant, it holds wherever the process is interrupted. -/
theorem Safe.interrupt_watched {I : M.World → Prop} (hsuspends : ∀ o, M.suspends o = false)
    (hallowed : ∀ o env w, S.Allowed o env w)
    (hstep : ∀ o env w kept, S.Pre o (w, kept) → I w → I (M.exec o env w).2)
    (h : Safe S p Q (w, kept)) (hw : I w) : I (M.interrupt p envs w) := by
  induction p generalizing envs w kept with
  | ret b => exact hw
  | call o next ih =>
    cases envs with
    | nil => exact hw
    | cons env envs =>
      obtain ⟨hpre, hnext⟩ := h (w, kept) (by simp [Server.watched, hsuspends])
      exact ih _ (hnext env (hallowed o env (w, kept))) (hstep o env w kept hpre hw)

end Watched

end Alone

section Credit

/-- The purse of one process: it pays for its operations and earns by their answers. -/
def Server.purse (M : Server Op Res) (earns : (o : Op) → Res o → Nat) (costs : Op → Nat) :
    Server Op Res where
  World := Nat
  Env := M.Env × M.World
  exec o env n := ((M.exec o env.1 env.2).1, n - costs o + earns o (M.exec o env.1 env.2).1)
  suspends _ := false
  Request := M.Request
  Response := M.Response
  handler := M.handler
  restart _ n := some n

/-- No operation is performed that the process cannot pay for. -/
def Spec.solvent (M : Server Op Res) (earns : (o : Op) → Res o → Nat) (costs : Op → Nat) :
    Spec (M.purse earns costs) where
  Inv _ := True
  Rely _ _ := True
  Pre o n := costs o ≤ n
  Allowed _ _ _ := True

variable {M : Server Op Res} {earns : (o : Op) → Res o → Nat} {costs : Op → Nat}

variable (M earns costs) in
abbrev Solvent (p : Proc Op Res α) (n : Nat) : Prop :=
  Safe (Spec.solvent M earns costs) p (fun _ _ => True) n

variable (earns costs) in
/-- The processes can all pay for what they do, together from `n`. -/
def Funded : List M.Thread → Nat → Prop
  | [], _ => True
  | t :: ts, n => ∃ k m, k + m ≤ n ∧
      Solvent M earns costs t.body k ∧ Funded ts m

namespace Funded

variable {t : M.Thread} {ts : List M.Thread} {k m n : Nat}

theorem mono (h : Funded earns costs ts m) (hmn : m ≤ n) : Funded earns costs ts n := by
  cases ts with
  | nil => trivial
  | cons t ts =>
    obtain ⟨k, m', hle, ht, hts⟩ := h
    exact ⟨k, m', Nat.le_trans hle hmn, ht, hts⟩

theorem concat (h : Funded earns costs ts m)
    (ht : Solvent M earns costs t.body k) :
    Funded earns costs (ts ++ [t]) (m + k) := by
  induction ts generalizing m with
  | nil => exact ⟨k, 0, by omega, ht, trivial⟩
  | cons t' ts ih =>
    obtain ⟨k', m', hle, ht', hts⟩ := h
    exact ⟨k', m' + k, by omega, ht', ih hts⟩

theorem eraseIdx (h : Funded earns costs ts n) {i : Nat} (hi : ts[i]? = some t) :
    ∃ k m, k + m ≤ n ∧ Solvent M earns costs t.body k ∧
      Funded earns costs (ts.eraseIdx i) m := by
  induction ts generalizing i n with
  | nil => cases hi
  | cons t' ts ih =>
    obtain ⟨k, m, hle, ht, hts⟩ := h
    cases i with
    | zero =>
      cases hi
      exact ⟨k, m, hle, ht, hts⟩
    | succ i =>
      obtain ⟨k', m', hle', ht', hts'⟩ := ih hts hi
      exact ⟨k', k + m', by omega, ht', k, m', Nat.le_refl _, ht, hts'⟩

end Funded

variable (costs) in
/-- What the operation a process stands at costs. -/
def Server.Thread.due (t : M.Thread) : Nat := t.next?.elim 0 costs

variable (costs) in
/-- What an event spends. When the processes are lost, each may have performed the operation
it stood at. -/
def Server.spent (c : M.Config) (e : M.Event) : Nat :=
  match e with
  | .crash => (c.active.toList ++ c.parked).foldr (fun t n => t.due costs + n) 0
  | e => (operation? c e).elim 0 fun o => costs o.1

variable (earns) in
/-- What an event earns, by the answer to the operation it performs. -/
def Server.earned (c : M.Config) (e : M.Event) : Nat :=
  (operation? c e).elim 0 fun o => earns o.1 (M.exec o.1 o.2 c.world).1

/-- A count of events along a run. -/
def Server.tally (f : M.Config → M.Event → Nat) (c : M.Config) : List M.Event → Nat
  | [] => 0
  | e :: es => (step c e).elim 0 fun c' => f c e + tally f c' es

/-- What is counted comes out of a potential, and of what is counted on the other side. -/
theorem Server.tally_le {f g : M.Config → M.Event → Nat} {φ : M.Config → Nat}
    (h : ∀ {c e c'}, step c e = some c' → f c e + φ c' ≤ φ c + g c e) (c : M.Config)
    (es : List M.Event) : tally f c es ≤ φ c + tally g c es := by
  induction es generalizing c with
  | nil => exact Nat.zero_le _
  | cons e es ih =>
    unfold tally
    cases hstep : step c e with
    | none => exact Nat.zero_le _
    | some c' =>
      have hone := h hstep
      have hrest := ih c'
      simp only [Option.elim]
      omega

/-- Where an event performs an operation, the operation moves the world. -/
theorem Server.world_of_operation {c c' : M.Config} {e : M.Event} {o : Op} {env : M.Env}
    (hstep : step c e = some c') (ho : operation? c e = some (o, env)) :
    c'.world = (M.exec o env c.world).2 := by
  have hadvance (c : M.Config) (t : M.Thread) (h : t.next? = some o) :
      (c.advance t env).world = (M.exec o env c.world).2 := by
    unfold Config.advance Config.schedule Thread.next? at *
    split at h
    · cases h
    · cases h
      dsimp only
      split
      · rfl
      · split <;> rfl
  cases e with
  | perform env' =>
    obtain ⟨t, ht, rfl⟩ := Option.map_eq_some_iff.mp hstep
    simp only [operation?, ht, Option.bind_some, Option.map_eq_some_iff] at ho
    obtain ⟨o', hnext, heq⟩ := ho
    cases heq
    exact hadvance c t hnext
  | resume index env' =>
    simp only [step] at hstep
    split at hstep
    · obtain ⟨t, ht, rfl⟩ := Option.map_eq_some_iff.mp hstep
      simp only [operation?, ht, Option.bind_some, Option.map_eq_some_iff] at ho
      obtain ⟨o', hnext, heq⟩ := ho
      cases heq
      exact hadvance _ t hnext
    · cases hstep
  | _ => cases ho

namespace Funded

variable {c c' : M.Config} {t : M.Thread} {k m n : Nat}

theorem due_le (ht : Solvent M earns costs t.body k) :
    t.due costs ≤ k := by
  cases hbody : t.body with
  | ret a => simp [Thread.due, Thread.next?, hbody]
  | call o next =>
    rw [hbody] at ht
    simp only [Thread.due, Thread.next?, hbody]
    exact (ht k rfl).1

theorem sum_due_le {ts : List M.Thread} (h : Funded earns costs ts n) :
    ts.foldr (fun t n => t.due costs + n) 0 ≤ n := by
  induction ts generalizing n with
  | nil => exact Nat.zero_le n
  | cons t ts ih =>
    obtain ⟨k, m, hle, ht, hts⟩ := h
    have hdue := due_le ht
    have hrest := ih hts
    simp only [List.foldr_cons]
    omega

theorem schedule (ht : Solvent M earns costs t.body k)
    (h : Funded earns costs c.parked m) (hle : k + m ≤ n) :
    Funded earns costs ((c.schedule t).active.toList ++ (c.schedule t).parked) n := by
  unfold Config.schedule
  split
  · exact h.mono (by omega)
  · split
    · exact (h.concat ht).mono (by omega)
    · exact ⟨k, m, hle, ht, h⟩

/-- A process that performs its operation pays for it, and keeps what it earns. -/
theorem advance {op : Option (Op × M.Env)} {env : M.Env}
    (hop : op = t.next?.map fun o => (o, env)) (ht : Solvent M earns costs t.body k)
    (h : Funded earns costs c.parked m) (hle : k + m ≤ n) :
    op.elim 0 (fun o => costs o.1) ≤ n ∧
      Funded earns costs ((c.advance t env).active.toList ++ (c.advance t env).parked)
        (n - op.elim 0 (fun o => costs o.1) +
          op.elim 0 fun o => earns o.1 (M.exec o.1 o.2 c.world).1) := by
  subst hop
  unfold Config.advance Thread.next?
  cases hbody : t.body with
  | ret a => exact ⟨Nat.zero_le n, schedule ht h hle⟩
  | call o next =>
    rw [hbody] at ht
    obtain ⟨hdue, hnext⟩ := ht k rfl
    have hdue : costs o ≤ k := hdue
    refine ⟨by simp only [Option.map, Option.elim]; omega, ?_⟩
    refine schedule (t := ⟨t.request, _⟩) (c := ⟨(M.exec o env c.world).2, c.parked, c.active,
      c.answered, c.up⟩) (hnext (env, c.world) trivial) h ?_
    simp only [purse, Option.map, Option.elim]
    omega

theorem step (hhandler : ∀ request, Solvent M earns costs (M.handler request) 0) {e : M.Event}
    (h : Funded earns costs (c.active.toList ++ c.parked) n) (hstep : step c e = some c') :
    spent costs c e ≤ n ∧ Funded earns costs (c'.active.toList ++ c'.parked)
      (n - spent costs c e + earned earns c e) := by
  cases e with
  | accept request =>
    simp only [Server.step] at hstep
    split at hstep
    · rename_i hidle
      cases hstep
      have hactive : c.active = none := by simpa using (Bool.and_eq_true_iff.mp hidle).2
      rw [hactive] at h
      refine ⟨Nat.zero_le n, schedule (t := ⟨request, _⟩) (hhandler request) h ?_⟩
      simp [spent, operation?]
    · cases hstep
  | perform env =>
    obtain ⟨t, ht, rfl⟩ := Option.map_eq_some_iff.mp hstep
    rw [ht] at h
    obtain ⟨k, m, hle, hsafe, hrest⟩ := h
    exact advance (by simp [operation?, ht]) hsafe hrest hle
  | resume index env =>
    simp only [Server.step] at hstep
    split at hstep
    · rename_i hidle
      obtain ⟨t, ht, rfl⟩ := Option.map_eq_some_iff.mp hstep
      rw [Option.isNone_iff_eq_none.mp hidle] at h
      obtain ⟨k, m, hle, hsafe, hrest⟩ := eraseIdx h ht
      exact advance (c := { c with parked := c.parked.eraseIdx index })
        (by simp [operation?, ht]) hsafe hrest hle
    · cases hstep
  | crash =>
    cases hstep
    exact ⟨h.sum_due_le, trivial⟩
  | boot env =>
    simp only [Server.step] at hstep
    split at hstep
    · cases hstep
    · obtain ⟨w, hw, rfl⟩ := Option.map_eq_some_iff.mp hstep
      exact ⟨Nat.zero_le n, trivial⟩

end Funded

/-- A run spends no more than it earns, once every request can pay for what it does. -/
theorem Server.tally_spent_le (hhandler : ∀ request, Solvent M earns costs (M.handler request) 0) (w : M.World) (es : List M.Event) :
    tally (spent costs) (initial w) es ≤ tally (earned earns) (initial w) es := by
  have hrun : ∀ (es : List M.Event) {c : M.Config} {n : Nat},
      Funded earns costs (c.active.toList ++ c.parked) n →
        tally (spent costs) c es ≤ n + tally (earned earns) c es := by
    intro es
    induction es with
    | nil => exact fun _ => Nat.zero_le _
    | cons e es ih =>
      intro c n h
      unfold tally
      cases hstep : Server.step c e with
      | none => exact Nat.zero_le _
      | some c' =>
        obtain ⟨hle, hnext⟩ := h.step hhandler hstep
        have hrest := ih hnext
        simp only [Option.elim]
        omega
  simpa using hrun es (c := initial w) (n := 0) trivial

end Credit

end ClockifyAssistant.Lib
