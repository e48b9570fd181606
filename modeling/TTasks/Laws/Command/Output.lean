import TTasks.Laws.Command.Pipes

/-!
# What a command has printed when its call is over

The main thread leaves by no way without having seen both readers finish. So in every interleaving
the OUTPUT events come line by line in the pipe's order, and when the call returns or raises, all of
them have been published: what the result carries is their text (`command_streams`). And the wait
for the readers ends (`command_ends`).
-/

namespace TTasks.Command

open Interleave
open Prog (Contract)

section Laws

variable (context : Context) (os : Os) (lines : OutputStream → List Line)

/-! ## The main thread -/

/-- What the result carries: the exit code and all that has come out of the pipes. -/
def captured : CompletedProcess where
  returncode := os.returncode
  stdout := some (String.join (texts (lines .stdout)))
  stderr := some (String.join (texts (lines .stderr)))

/-- How a call may end. -/
inductive Reports : Except Exc CompletedProcess → Prop
  | returned (code : os.returncode = 0) : Reports (.ok (captured os lines))
  | failed (code : os.returncode ≠ 0) : Reports
    (.error (.taskExecutionError (failureMessage (captured os lines)) (captured os lines)))
  | cancelled (code : os.returncode ≠ 0) (n : Nat) (seen : os.cancelled n = true) : Reports
    (.error (.taskCancelled ("Task " ++ quoted context.id ++ " was cancelled")))
  | timedOut (bounded : context.timeout.isSome = true) : Reports
    (.error (.taskTimeoutError (timeoutMessage context) (captured os lines)))
  | raised (e : Exc) (n : Nat) (interrupted : os.waited n = .raised e) : Reports (.error e)

/-- What the main thread knows: which readers it has started, which are over, and whether the process
has left `_running_processes`. -/
structure Knows (started finished : OutputStream → Prop) (gone : Prop) (s : Shared) : Prop where
  fitting : Fitting lines s
  started : ∀ stream, started stream → s.started stream = true
  finished : ∀ stream, finished stream → s.finished stream = true
  gone : gone → s.registered = false

section Main

variable {context os lines} {started finished : OutputStream → Prop} {gone : Prop} {s : Shared}

/-- What the main thread knows stands while the readers move. -/
theorem Knows.relies {s' : Shared} (here : Knows lines started finished gone s)
    (fitting : Fitting lines s') (moved : Relies .main s s') :
    Knows lines started finished gone s' where
  fitting := fitting
  started stream h := (congrFun moved.2.1 stream).trans (here.started stream h)
  finished stream h := moved.2.2 stream (here.finished stream h)
  gone h := moved.1.trans (here.gone h)

/-- An operation of the main thread leaves the pipes alone. -/
theorem wp_main (o : Op) (main : o.Main) {Q : Except Exc o.Ans → Shared → Prop}
    (here : Knows lines started finished gone s)
    (ready : ∀ s', Knows lines started finished gone s' → Ready .main o s')
    (next : ∀ s', Knows lines started finished gone s' → Enabled context os .main o s' →
      Fitting lines (sem os .main o s').2 →
      Q (.ok (sem os .main o s').1) (sem os .main o s').2) :
    (Prog.op o : Cmd o.Ans).wp (sem os .main) (contract context os lines .main) Q s := by
  rintro s' ⟨fitting, moved⟩
  have now := here.relies fitting moved
  have tracks : ∀ stream, track stream (sem os .main o s').2 = track stream s' :=
    track_main main os .main s'
  have fits : Fitting lines (sem os .main o s').2 := fun stream => tracks stream ▸ fitting stream
  refine ⟨ready s' now, fun enabled => ⟨⟨fits, fun who other => ?_⟩, next s' now enabled fits⟩⟩
  cases who with
  | main => exact absurd rfl other
  | reader stream => exact tracks stream

/-- An operation that does nothing but tell, or wait. -/
def Op.Tells : Op → Prop
  | .cancelled | .terminate | .wait | .joinInTime _ | .isAlive _ | .join _ | .captured _
  | .returncode => True
  | _ => False

/-- A tick of the clock changes none of it. -/
theorem Knows.tick (here : Knows lines started finished gone s) (n : Nat) :
    Knows lines started finished gone { s with clock := n } := { here with }

/-- An operation that only tells the main thread something leaves what it knows. -/
theorem wp_tells (o : Op) (tells : o.Tells) {Q : Except Exc o.Ans → Shared → Prop}
    (here : Knows lines started finished gone s) (begun : ∀ stream, started stream)
    (next : ∀ s', Knows lines started finished gone s' → Enabled context os .main o s' →
      Q (.ok (o.perform os s').1) { s' with clock := s'.clock + 1 }) :
    (Prog.op o : Cmd o.Ans).wp (sem os .main) (contract context os lines .main) Q s := by
  have main : o.Main := by cases o <;> first | exact tells.elim | trivial
  refine wp_main o main here (fun s' now => ?_) fun s' now enabled _ => ?_
  · cases o <;> first | exact tells.elim | exact now.started _ (begun _) | trivial
  · have after : sem os .main o s' = ((o.perform os s').1, { s' with clock := s'.clock + 1 }) := by
      cases o <;> first | exact tells.elim | rfl
    rw [after]
    exact next s' now enabled

/-- The main thread knows that everything is over. -/
abbrev Over (lines : OutputStream → List Line) (gone : Prop) (s : Shared) : Prop :=
  Knows lines (fun _ => True) (fun _ => True) gone s

/-- A join with no timeout returns with the reader over. -/
theorem wp_join {stream : OutputStream} {Q : Except Exc Unit → Shared → Prop}
    (here : Knows lines (fun _ => True) finished gone s)
    (next : ∀ s', Knows lines (fun _ => True) (fun st => st = stream ∨ finished st) gone s' →
      Q (.ok ()) s') :
    (Prog.op (Op.join stream) : Cmd Unit).wp (sem os .main) (contract context os lines .main) Q
      s := by
  refine wp_tells (.join stream) trivial here (fun _ => trivial) fun s' now enabled => next _ ?_
  refine { now.tick _ with finished := fun st h => ?_ }
  rcases h with rfl | h
  · exact enabled
  · exact now.finished st h

/-- A join with what remains of the timeout is a join where there is none. -/
theorem wp_joinInTime {stream : OutputStream} {Q : Except Exc Unit → Shared → Prop}
    (here : Knows lines (fun _ => True) finished gone s)
    (next : ∀ s', Knows lines (fun _ => True)
      (fun st => st = stream ∧ context.timeout = none ∨ finished st) gone s' → Q (.ok ()) s') :
    (Prog.op (Op.joinInTime stream) : Cmd Unit).wp (sem os .main) (contract context os lines .main) Q
      s := by
  refine wp_tells (.joinInTime stream) trivial here (fun _ => trivial)
    fun s' now enabled => next _ ?_
  refine { now.tick _ with finished := fun st h => ?_ }
  rcases h with ⟨rfl, unbounded⟩ | h
  · rcases enabled with drained | bounded
    · exact drained
    · rw [unbounded] at bounded
      cases bounded
  · exact now.finished st h

/-- A reader that is found dead is over; a live one says nothing. -/
theorem wp_isAlive {stream : OutputStream} {Q : Except Exc Bool → Shared → Prop}
    (here : Knows lines (fun _ => True) finished gone s)
    (alive : ∀ s', Knows lines (fun _ => True) finished gone s' → Q (.ok true) s')
    (dead : ∀ s', Knows lines (fun _ => True) (fun st => st = stream ∨ finished st) gone s' →
      Q (.ok false) s') :
    (Prog.op (Op.isAlive stream) : Cmd Bool).wp (sem os .main) (contract context os lines .main) Q
      s := by
  refine wp_tells (.isAlive stream) trivial here (fun _ => trivial) fun s' now _ => ?_
  show Q (.ok !s'.finished stream) _
  cases drained : s'.finished stream with
  | false => exact alive _ (now.tick _)
  | true =>
    refine dead _ { now.tick _ with finished := fun st h => ?_ }
    rcases h with rfl | h
    · exact drained
    · exact now.finished st h

/-- Once the readers are over, taking the process out of `_running_processes` leaves nothing to do.
-/
theorem wp_unregister {Q : Except Exc Unit → Shared → Prop} (here : Over lines gone s)
    (next : ∀ s', Over lines True s' → Q (.ok ()) s') :
    (Prog.op Op.unregister : Cmd Unit).wp (sem os .main) (contract context os lines .main) Q s :=
  wp_main .unregister trivial here (fun _ _ => trivial) fun _ now _ fits => next _
    { now with fitting := fits, gone := fun _ => rfl }

/-- If the readers are alive or not; when neither is, both are over. -/
theorem wp_anyAlive (here : Knows lines (fun _ => True) finished gone s) :
    anyAlive.wp (sem os .main) (contract context os lines .main)
      (fun r s => ∃ late, r = .ok late ∧
        Knows lines (fun _ => True) (fun _ => late = false) gone s) s := by
  refine Prog.wp_or (wp_isAlive here (fun s' now => ⟨true, rfl, ?_⟩) fun s' now => ?_)
  · exact { now with finished := fun _ h => by cases h }
  · refine wp_isAlive now (fun s' now => ⟨true, rfl, ?_⟩) fun s' now => ⟨false, rfl, ?_⟩
    · exact { now with finished := fun _ h => by cases h }
    · refine { now with finished := fun st _ => now.finished st ?_ }
      cases st with
      | stdout => exact .inr (.inl rfl)
      | stderr => exact .inl rfl

/-- Whether the call is late is only asked; with no timeout it is not. -/
theorem isLate_tells (timedOut : Bool)
    (here : Knows lines (fun _ => True) (fun _ => context.timeout = none) gone s) :
    (isLate context timedOut).wp (sem os .main) (contract context os lines .main)
      (fun r s => ∃ late, r = .ok late ∧ (late = true → context.timeout.isSome = true) ∧
        Knows lines (fun _ => True) (fun _ => (timedOut || late) = false) gone s) s := by
  cases timedOut with
  | true => exact ⟨false, rfl, nofun, { here with finished := fun _ h => by cases h }⟩
  | false =>
    unfold isLate
    cases timeout : context.timeout with
    | some t =>
      refine Prog.wp_mono (wp_anyAlive here) fun r s => ?_
      rintro ⟨late, rfl, now⟩
      exact ⟨late, rfl, fun _ => rfl, now⟩
    | none =>
      exact ⟨false, rfl, nofun, { here with finished := fun st _ => here.finished st timeout }⟩

/-- Terminating the process, or not, leaves what is known of the readers. -/
theorem wp_terminateIf (condition : Bool) {Q : Except Exc Unit → Shared → Prop}
    (here : Knows lines (fun _ => True) finished gone s)
    (next : ∀ s', Knows lines (fun _ => True) finished gone s' → Q (.ok ()) s') :
    (terminateIf condition).wp (sem os .main) (contract context os lines .main) Q s := by
  cases condition with
  | false => exact next s here
  | true =>
    exact wp_tells .terminate trivial here (fun _ => trivial) fun s' now _ => next _ (now.tick _)

/-- The readers are over after the joins, which are taken unless the wait was given up. -/
theorem wp_joinIf (timedOut : Bool) {Q : Except Exc Unit → Shared → Prop}
    (here : Knows lines (fun _ => True) (fun _ => timedOut = false) gone s)
    (next : ∀ s', Over lines gone s' → Q (.ok ()) s') :
    (joinIf timedOut).wp (sem os .main) (contract context os lines .main) Q s := by
  cases timedOut with
  | false => exact next s { here with finished := fun st _ => here.finished st rfl }
  | true =>
    show (Prog.bind (Prog.op (Op.join .stdout)) _).wp _ _ _ _
    rw [Prog.wp_bind]
    refine wp_join here fun s' now => ?_
    refine wp_join now fun s' now => next s' { now with finished := fun st _ => now.finished st ?_ }
    cases st with
    | stdout => exact .inr (.inl rfl)
    | stderr => exact .inl rfl

/-- The `finally` clause ends with both readers over, whichever way it takes. -/
theorem drain_ends (timedOut : Bool) (here : Knows lines (fun _ => True) (fun _ => False) gone s) :
    (drain context timedOut).wp (sem os .main) (contract context os lines .main)
      (fun r s => ∃ late, r = .ok (timedOut || late) ∧ Over lines True s ∧
        (late = true → context.timeout.isSome = true)) s := by
  unfold drain
  rw [Prog.bind_eq, Prog.wp_bind]
  refine wp_joinInTime here fun s₁ now => ?_
  show (Prog.bind (Prog.op (Op.joinInTime .stderr)) _).wp _ _ _ _
  rw [Prog.wp_bind]
  refine wp_joinInTime now fun s₂ now => ?_
  have unbounded : Knows lines (fun _ => True) (fun _ => context.timeout = none) gone s₂ := by
    refine { now with finished := fun st none => now.finished st ?_ }
    cases st with
    | stdout => exact .inr (.inl ⟨rfl, none⟩)
    | stderr => exact .inl ⟨rfl, none⟩
  show (Prog.bind (isLate context timedOut) _).wp _ _ _ _
  rw [Prog.wp_bind]
  refine Prog.wp_mono (isLate_tells timedOut unbounded) fun r s₃ => ?_
  rintro ⟨late, rfl, bounded, now⟩
  show (Prog.bind (terminateIf late) _).wp _ _ _ _
  rw [Prog.wp_bind]
  refine wp_terminateIf late now fun s₄ now => ?_
  show (Prog.bind (joinIf (timedOut || late)) _).wp _ _ _ _
  rw [Prog.wp_bind]
  refine wp_joinIf _ now fun s₅ drained => ?_
  show (Prog.bind (Prog.op Op.unregister) _).wp _ _ _ _
  rw [Prog.wp_bind]
  exact wp_unregister drained fun s₆ drained => ⟨late, rfl, drained, bounded⟩

/-- What the result is made of, once everything is over. -/
theorem wp_completedProcess {Q : Except Exc CompletedProcess → Shared → Prop}
    (drained : Over lines gone s)
    (next : ∀ s', Over lines gone s' → Q (.ok (captured os lines)) s') :
    completedProcess.wp (sem os .main) (contract context os lines .main) Q s := by
  have whole : ∀ {stream} {s'}, Over lines gone s' →
      String.join (s'.chunks stream) = String.join (texts (lines stream)) :=
    fun {stream} {s'} now =>
      congrArg String.join ((now.fitting stream).finished (now.finished stream trivial)).1
  unfold completedProcess
  rw [Prog.bind_eq, Prog.wp_bind]
  refine wp_tells (.captured .stdout) trivial drained (fun _ => trivial) fun s₁ now₁ _ => ?_
  show (Prog.bind (Prog.op (Op.captured .stderr)) _).wp _ _ _ _
  rw [Prog.wp_bind]
  refine wp_tells (.captured .stderr) trivial (now₁.tick _) (fun _ => trivial) fun s₂ now₂ _ => ?_
  show (Prog.bind (Prog.op Op.returncode) _).wp _ _ _ _
  rw [Prog.wp_bind]
  refine wp_tells .returncode trivial (now₂.tick _) (fun _ => trivial) fun s₃ now₃ _ => ?_
  have result : ({ returncode := os.returncode, stdout := some (String.join (s₁.chunks .stdout))
                   stderr := some (String.join (s₂.chunks .stderr)) } : CompletedProcess) =
      captured os lines := by
    rw [whole now₁, whole now₂]
    rfl
  have ends := next _ (now₃.tick (s₃.clock + 1))
  rw [← result] at ends
  exact ends

/-- The conclusion reports what has come out of the pipes, on each of its exits. -/
theorem conclude_reports (timedOut : Bool)
    (bounded : timedOut = true → context.timeout.isSome = true) (drained : Over lines gone s) :
    (conclude context timedOut).wp (sem os .main) (contract context os lines .main)
      (fun r s => Over lines gone s ∧ Reports context os lines r) s := by
  unfold conclude
  rw [Prog.bind_eq, Prog.wp_bind]
  refine wp_completedProcess drained fun s₁ drained => ?_
  cases timedOut with
  | true => exact ⟨drained, .timedOut (bounded rfl)⟩
  | false =>
    show (if (captured os lines).returncode ≠ 0 then _ else _ : Cmd CompletedProcess).wp _ _ _ _
    by_cases code : (captured os lines).returncode = 0
    · rw [if_neg (not_not.mpr code)]
      exact ⟨drained, .returned code⟩
    · rw [if_pos code, Prog.bind_eq, Prog.wp_bind]
      refine wp_tells .cancelled trivial drained (fun _ => trivial) fun s₂ now _ => ?_
      show (if os.cancelled s₂.clock = true then _ else _ : Cmd CompletedProcess).wp _ _ _ _
      by_cases seen : os.cancelled s₂.clock = true
      · rw [if_pos seen]
        exact ⟨now.tick _, .cancelled code s₂.clock seen⟩
      · rw [if_neg seen]
        exact ⟨now.tick _, .failed code⟩

/-- How the wait ends; it expires only where there is a timeout. -/
def Awaited (context : Context) (os : Os) (lines : OutputStream → List Line) (gone : Prop) :
    Except Exc Bool → Shared → Prop
  | .ok timedOut, s => Knows lines (fun _ => True) (fun _ => False) gone s ∧
    (timedOut = true → context.timeout.isSome = true)
  | .error e, s => Knows lines (fun _ => True) (fun _ => False) gone s ∧
    ∃ n, os.waited n = .raised e

/-- The wait ends: the process has ended, or it was given up, or the wait itself raises. -/
theorem awaitProcess_ends (here : Knows lines (fun _ => True) (fun _ => False) gone s) :
    awaitProcess.wp (sem os .main) (contract context os lines .main) (Awaited context os lines gone)
      s := by
  unfold awaitProcess
  rw [Prog.bind_eq, Prog.wp_bind]
  refine wp_tells .wait trivial here (fun _ => trivial) fun s' now enabled => ?_
  show Prog.wp _ _ (match os.waited s'.clock with
    | .exited => pure false
    | .expired => Prog.op Op.terminate >>= fun _ => pure true
    | .raised e => throw e) _ _
  cases waited : os.waited s'.clock with
  | exited => exact ⟨now.tick _, nofun⟩
  | expired =>
    have bounded : context.timeout.isSome = true :=
      enabled.resolve_left fun other => other waited
    show (Prog.bind (Prog.op Op.terminate) _).wp _ _ _ _
    rw [Prog.wp_bind]
    exact wp_tells .terminate trivial (now.tick _) (fun _ => trivial) fun s' now _ =>
      ⟨now.tick _, fun _ => bounded⟩
  | raised e => exact ⟨now.tick _, s'.clock, waited⟩

/-- A call to its end: the process is taken out again, and what is reported is all of the output. -/
theorem runCommand_reports (fitting : Fitting lines s) :
    (runCommand context).wp (sem os .main) (contract context os lines .main)
      (fun r s => Over lines True s ∧ Reports context os lines r) s := by
  have here : Knows lines (fun _ => False) (fun _ => False) False s :=
    ⟨fitting, fun _ h => h.elim, fun _ h => h.elim, False.elim⟩
  unfold runCommand
  rw [Prog.bind_eq, Prog.wp_bind]
  -- the process, and then its two readers
  refine wp_main .spawn trivial here (fun _ _ => trivial) fun s₁ now _ fits => ?_
  have now : Knows lines (fun _ => False) (fun _ => False) False _ :=
    ⟨fits, fun _ h => h.elim, fun _ h => h.elim, False.elim⟩
  show (Prog.bind (Prog.op (Op.startReader .stdout)) _).wp _ _ _ _
  rw [Prog.wp_bind]
  refine wp_main (.startReader .stdout) trivial now (fun _ _ => trivial) fun s₂ now _ fits => ?_
  have now : Knows lines (fun st => st = .stdout) (fun _ => False) False _ :=
    ⟨fits, fun st h => h ▸ Function.update_self .., fun _ h => h.elim, False.elim⟩
  show (Prog.bind (Prog.op (Op.startReader .stderr)) _).wp _ _ _ _
  rw [Prog.wp_bind]
  refine wp_main (.startReader .stderr) trivial now (fun _ _ => trivial) fun s₃ now _ fits => ?_
  have now : Knows lines (fun _ => True) (fun _ => False) False
      (sem os .main (.startReader .stderr) s₃).2 := by
    refine ⟨fits, fun st _ => ?_, fun _ h => h.elim, False.elim⟩
    show Function.update s₃.started .stderr true st = true
    by_cases same : st = .stderr
    · rw [same, Function.update_self]
    · rw [Function.update_of_ne same]
      cases st with
      | stdout => exact now.started .stdout rfl
      | stderr => exact absurd rfl same
  show (Prog.bind (Prog.op Op.cancelled) _).wp _ _ _ _
  rw [Prog.wp_bind]
  -- a cancel may have come before the process was registered
  refine wp_tells .cancelled trivial now (fun _ => trivial) fun s₄ now _ => ?_
  show (Prog.bind (terminateIf _) _).wp _ _ _ _
  rw [Prog.wp_bind]
  refine wp_terminateIf _ (now.tick _) fun s₅ now => ?_
  show (Prog.bind awaitProcess.result _).wp _ _ _ _
  rw [Prog.wp_bind, Prog.result, Prog.wp_tryCatch, Prog.wp_bind]
  refine Prog.wp_mono (awaitProcess_ends now) fun r s₆ ends => ?_
  -- the wait is over, by the process or by the clock, or it was interrupted
  cases r with
  | ok timedOut =>
    obtain ⟨now, bounded⟩ := ends
    show (Prog.bind (drain context timedOut) _).wp _ _ _ _
    rw [Prog.wp_bind]
    refine Prog.wp_mono (drain_ends timedOut now) fun r s₇ => ?_
    rintro ⟨late, rfl, drained, bounded'⟩
    refine conclude_reports _ (fun h => ?_) drained
    cases timedOut with
    | true => exact bounded rfl
    | false => exact bounded' h
  | error e =>
    obtain ⟨now, n, interrupted⟩ := ends
    show (Prog.bind (drain context false) _).wp _ _ _ _
    rw [Prog.wp_bind]
    refine Prog.wp_mono (drain_ends false now) fun r s₇ => ?_
    rintro ⟨late, rfl, drained, -⟩
    exact ⟨drained, .raised e n interrupted⟩

end Main

/-! ## All threads together -/

/-- How a thread ends. -/
def Done : Who → Except Exc (Option CompletedProcess) → Shared → Prop
  | .main, r, s => ((∀ stream, s.finished stream = true) ∧ s.registered = false) ∧
    ∃ r', Reports context os lines r' ∧ r = r'.map some
  | .reader stream, r, s => r = .ok none ∧ s.finished stream = true

/-- The contracts of the main thread and the readers fit together. -/
theorem contracts_compatible : Threads.Compatible (sem os) (contract context os lines) (Fitting lines)
    (Done context os lines) where
  refl who s fitting := ⟨fitting, .refl who s⟩
  trans _ _ _ _ h h' := ⟨h'.1, h.2.trans h'.2⟩
  inv _ _ _ _ h := h.1
  rely i _ other _ _ _ h := ⟨h.1, h.2 i other⟩
  post
    | .main, _, _, _, moved, done =>
      ⟨⟨fun stream => moved.2.2.2 stream (done.1.1 stream), moved.2.1.trans done.1.2⟩, done.2⟩
    | .reader _, _, _, _, moved, done =>
      ⟨done.1, (congrArg Track.finished moved.2).trans done.2⟩

/-- At the start each thread has its contract's program in front of it. -/
theorem start_sound : Threads.Sound (sem os) (contract context os lines) (Fitting lines)
    (Done context os lines) (start context lines) := by
  have fitting : Fitting lines (start context lines).shared := fun stream =>
    ⟨List.nil_prefix, List.prefix_refl _, nofun⟩
  refine ⟨fitting, fun who => ?_⟩
  cases who with
  | main =>
    refine (Prog.wp_bind _ _ _ _ _ _).mpr (Prog.wp_mono (runCommand_reports fitting) fun r s => ?_)
    rintro ⟨drained, reports⟩
    have ended : (∀ stream, s.finished stream = true) ∧ s.registered = false :=
      ⟨fun stream => drained.finished stream trivial, drained.gone trivial⟩
    cases r with
    | ok p => exact ⟨ended, _, reports, rfl⟩
    | error e => exact ⟨ended, _, reports, rfl⟩
  | reader stream =>
    refine (Prog.wp_bind _ _ _ _ _ _).mpr (Prog.wp_mono (wp_readOutput _ (lines stream)
      (Nat.lt_succ_self _) rfl rfl) fun r s => ?_)
    rintro ⟨rfl, finished⟩
    exact ⟨rfl, finished⟩

variable {context os lines}

/-- In every state of a run the contracts hold. -/
theorem sound_of_reaches {s : State} (run : (Threads.machine (sem os)).Reaches
    (Threads.Allows (Enabled context os)) (start context lines) s) :
    Threads.Sound (sem os) (contract context os lines) (Fitting lines) (Done context os lines) s :=
  (start_sound context os lines).reaches (contracts_compatible context os lines) run

/-- A reader that is over does nothing more. -/
theorem reader_over {s : State} (sound : Threads.Sound (sem os) (contract context os lines)
    (Fitting lines) (Done context os lines) s) {stream : OutputStream}
    (finished : s.shared.finished stream = true) : s.rest (.reader stream) = .ret none := by
  cases rest : s.rest (.reader stream) with
  | act o k =>
    have unfinished : s.shared.finished stream = false :=
      sound.ready (contracts_compatible context os lines) rest
    rw [finished] at unfinished
    cases unfinished
  | ret a =>
    have done := sound.each (.reader stream)
    rw [rest] at done
    rw [Except.ok.inj done.1]
  | fail e =>
    have done := sound.each (.reader stream)
    rw [rest] at done
    cases done.1

variable (context os lines)

/-- The call has returned or raised this. -/
def Ended (s : State) : Except Exc CompletedProcess → Prop
  | .ok p => s.rest .main = .ret (some p)
  | .error e => s.rest .main = .fail e

/-- The threads of a call: the main one and a reader for each pipe. -/
def crew : Finset Who := {.main, .reader .stdout, .reader .stderr}

/-- There are no others. -/
theorem mem_crew (who : Who) : who ∈ crew := by
  cases who with
  | main => simp [crew]
  | reader stream => cases stream <;> simp [crew]

/-- The main thread waits only for a reader that can go on. -/
theorem exists_able {s : State} (sound : Threads.Sound (sem os) (contract context os lines)
    (Fitting lines) (Done context os lines) s)
    (ends : context.timeout.isSome = true ∨ ∀ n, os.waited n ≠ .expired) (going : ¬ s.Over) :
    ∃ who o k, s.rest who = .act o k ∧ Enabled context os who o s.shared := by
  have fit := contracts_compatible context os lines
  by_cases acting : (s.rest .main).Acting
  · obtain ⟨o, k, next⟩ := acting.exists_act
    have ready : Ready .main o s.shared := sound.ready fit next
    -- a reader that has been started and is not over can go on
    have reads : ∀ stream, s.shared.started stream = true → s.shared.finished stream = false →
        ∃ who o k, s.rest who = .act o k ∧ Enabled context os who o s.shared := by
      intro stream started unfinished
      have acting : (s.rest (.reader stream)).Acting := by
        by_contra halted
        obtain ⟨_, -, finished⟩ := sound.post halted
        rw [unfinished] at finished
        cases finished
      obtain ⟨o, k, next⟩ := acting.exists_act
      exact ⟨_, o, k, next, started⟩
    by_cases enabled : Enabled context os .main o s.shared
    · exact ⟨_, o, k, next, enabled⟩
    · cases o with
      | join stream => exact reads stream ready (Bool.eq_false_iff.mpr enabled)
      | joinInTime stream =>
        exact reads stream ready (Bool.eq_false_iff.mpr fun drained => enabled (.inl drained))
      | wait =>
        exact absurd (ends.elim .inr fun never => .inl (never _)) enabled
      | _ => exact absurd trivial enabled
  · obtain ⟨_, ⟨finished, -⟩, -⟩ := sound.post acting
    refine absurd (fun who => ?_) going
    cases who with
    | main => exact acting
    | reader stream =>
      rw [reader_over sound (finished stream)]
      exact id

/-- If the process ends or there is a timeout, every run of the three threads comes to an end. -/
theorem command_ends (ends : context.timeout.isSome = true ∨ ∀ n, os.waited n ≠ .expired) :
    Inevitably ((Threads.machine (sem os)).Via (Threads.Allows (Enabled context os)))
      (fun s : State => s.Over) (start context lines) :=
  Threads.inevitably_of_able crew
    (J := (Threads.machine (sem os)).Reaches (Threads.Allows (Enabled context os))
      (start context lines))
    (fun _ who _ run allowed moved => run.tail ⟨who, allowed, moved⟩)
    (fun _ who _ _ _ _ => mem_crew who)
    (fun _ run going => exists_able context os lines (sound_of_reaches run) ends going) .refl

end Laws

/-- A process that ends well. -/
def quick : Os where
  waited _ := .exited
  cancelled _ := false
  returncode := 0

/-- A line has at least its newline. -/
theorem line_ne : "a\n" ≠ "" := by decide

/-- Two lines on one pipe and none on the other. -/
def twoLines : OutputStream → List Line
  | .stdout => [⟨"a\n", line_ne⟩, ⟨"a\n", line_ne⟩]
  | .stderr => []

instance (context : Context) (os : Os) (who : Who) (o : Op) (s : Shared) :
    Decidable (Enabled context os who o s) := by
  unfold Enabled
  split <;> infer_instance

/-- What a thread that is over has returned. -/
def returned : Cmd (Option CompletedProcess) → Option CompletedProcess
  | .ret p => p
  | _ => none

/-- A quick process with two lines of output: the call ends, however its threads are scheduled. -/
theorem command_ends_quick :
    Inevitably ((Threads.machine (sem quick)).Via (Threads.Allows (Enabled ⟨"t", none⟩ quick)))
      (fun s : State => s.Over) (start ⟨"t", none⟩ twoLines) :=
  command_ends ⟨"t", none⟩ quick twoLines (.inr fun _ => by simp [quick])

end TTasks.Command
