import TTasks.Laws.Scheduler.Chronicle

/-!
# Events along the edges of a graph

Whether the terminal event of a task comes before the STARTED event of a task that depends on it.
A task is ready once the statuses of its dependencies are SUCCEEDED, and a status is written before
it is saved and published; so another task's completion may submit a task in between
(`overtaken_event`). Where no task is submitted in that window, the events of every run are in order
(`run_inOrder`).
-/

namespace TTasks.Scheduler

open Interleave
open Prog (Contract Keeps OpKeeps)

section Order

variable {r : Run} {M : Mode r} {a b s s' : Shared} {t u : TaskId} {who : Who} {w w' : World}

/-! ## The scheduler's own code -/

variable (calm : r.cancels = [])

/-- The operations that mark a task which is not submitted. -/
theorem keeps_marking {o : TaskOp} {parent : Option TaskId} (marks : Marks t parent o) :
    OpKeeps (SchedOp.perform r who) ((chronicle r).contract (Mode.afterNews calm) who)
      (fun s => s.stage t = .absent ∧ Fixed r s t) (.task o) := by
  rintro a b ⟨absent, fixed⟩ ⟨env, -⟩
  refine ⟨trivial, ?_⟩
  rintro ⟨⟨-, allowed⟩, inv, moved⟩
  obtain ⟨fixed, -, stays⟩ := env.forward.fixed calm t fixed
  have absent := stays absent
  obtain ⟨fixed', -, stays'⟩ := moved.forward.fixed calm t fixed
  have kind : ∀ u e, o = .deliver u e → Marking e.type := by
    rintro u e rfl
    exact marks.2.2
  refine ⟨⟨moved, ?_⟩, stays' absent, fixed'⟩
  constructor
  case apart =>
    intro u _ running
    apply Hushed.apart
    apply hushed_of_ne marks.isOf
    rintro rfl
    rw [absent] at running
    cases running
  case started =>
    rintro u e is type
    cases is
    rcases kind u e rfl with h | h <;> rw [type] at h <;> cases h
  case spoken =>
    rintro u e is - notBlocked - named
    cases is
    rcases kind u e rfl with h | h
    · exact absurd h notBlocked
    · rw [h] at named
      cases named
  case finish =>
    intro u e is
    cases is
  case submit => exact allowed

theorem keeps_internal {o : SchedOp} (internal : Internal o) :
    OpKeeps (SchedOp.perform r who) ((chronicle r).contract (Mode.afterNews calm) who)
      (fun _ => True) o := by
  intro a b _ _
  refine ⟨trivial, fun allowed => ⟨⟨allowed.2.2, ?_⟩, trivial⟩⟩
  apply announces_quiet allowed.1.2 fun t => apart_internal internal t b
  · rintro t e rfl
    exact internal
  · rintro t e rfl
    exact internal

/-- The scheduler's own code announces nothing but markings. -/
theorem code_chronicle (who : Who) :
    Code r who ((chronicle r).contract (Mode.afterNews calm) who) (fun _ => True)
      (fun _ _ _ => True) where
  outer o internal _ := keeps_internal calm internal
  inner o inner := keeps_internal calm (internal_of_inner inner)
  acquired _ _ _ _ := trivial
  decide t s _ := by
    have keeps : Keeps (SchedOp.perform r who) ((chronicle r).contract (Mode.afterNews calm) who)
        (fun _ => True) (Scheduler.decide r t) := by
      apply Keeps.of_uses (P := Looks)
      · exact fun o looks => keeps_internal calm (internal_of_inner (inner_of_reads looks.reads))
      · exact .of_only (only_decide t)
    exact Prog.wp_mono (keeps s trivial) fun _ _ _ => ⟨trivial, fun _ _ _ _ => trivial⟩
  mark t bad s _ _ := by
    refine wp_markBlocked_parts trivial (keeps_internal calm trivial) ?_
      (fun o marks => keeps_marking calm marks) fun _ _ => trivial
    intro a b _ _
    refine ⟨trivial, ?_⟩
    rintro ⟨⟨-, allowed⟩, inv, moved⟩
    have hushed : ∀ u, Hushed u (.transition t .blocked none) := by
      intro u
      constructor <;> simp
    have quiet : Announces r who (.task (.transition t .blocked none)) b :=
      announces_quiet allowed (fun u => (hushed u).apart r.executor b.world) (by simp) (by simp)
    refine ⟨⟨moved, quiet⟩, trivial, fun ok => ?_⟩
    obtain ⟨absent, blocked, pending⟩ := marked_of_ok calm inv moved ok
    exact ⟨absent, .inr (.inr ⟨absent, blocked, pending⟩)⟩
  close := keeps_close (fun o inner => keeps_internal calm (internal_of_inner inner))
    (keeps_internal calm trivial)

/-! ## The pool's threads -/

theorem Apart.alone {n : Nat} {ws : World} (apart : Apart t w w') (same : Untouched t w w')
    (h : Alone t n w ws) : Alone t n w' ws := by
  obtain ⟨extra, events, none⟩ := apart.events
  refine ⟨h.task.trans same.task.symm, h.calls.trans same.calls.symm,
    h.stored.trans apart.stored.symm, ?_, ?_⟩
  · have long := h.long
    rw [events, List.length_append]
    omega
  · have silent : (extra.filter fun d => d.event.taskId == t && d.event.type.status.isSome) = [] := by
      apply List.filter_eq_nil_iff.mpr
      intro d hd
      rw [none d hd]
      simp
    rw [h.events, events, List.drop_append_of_le_length h.long, List.filter_append, silent,
      List.append_nil]

/-- What an execution says of its task. -/
def Speech (r : Run) (t : TaskId) (o : TaskOp) (w : World) : Prop :=
  o.IsOf t ∧ ∀ u e, o = .deliver u e → Ordinary r t → e.type ≠ .blocked → e.type ≠ .started →
    e.type.status.isSome = true → Reported r [⟨e, w.tasks u, w.stored u⟩] t

/-- What an execution tells of how its task ends. -/
def TellsEnd (r : Run) (t : TaskId) (n : Nat) (w : World) : Prop :=
  Ordinary r t → ∃ d ∈ w.deliveries.drop n, d.event.taskId = t ∧
    d.event.type.status = some d.event.status ∧ d.event.status = w.status t ∧
      (r.executor.Saves → d.Stored)

/-- The types of the events that report an end. -/
theorem isTerminal_of_type {type : TaskEventType} {status : TaskStatus} (blocked : type ≠ .blocked)
    (started : type ≠ .started) (named : type.status = some status) : status.isTerminal = true := by
  cases type with
  | blocked => exact absurd rfl blocked
  | started => exact absurd rfl started
  | _ => cases named <;> rfl

/-- The execution of a task, as its thread's part of the log. -/
theorem wp_execute_chronicle {upstream : List TaskId}
    (startable : (entered r t).canTransitionTo .running = true)
    (here : At t (r.world.tasks t).type (entered r t) (r.world.callCount t) w) :
    (execute r.executor t upstream).wp (TaskOp.perform r.executor)
      { rely := fun a b => Untouched t a b ∧ Apart t a b, guar := Speech r t }
      (fun _ b => TellsEnd r t w.deliveries.length b) w := by
  have telling : ∀ answers, Ordinary r t → Telling (r.executor.withSaves answers).Saves t
      ((r.executor.withSaves answers).run (executeOnce r.executor t upstream) w.alone).2 := by
    intro answers ordinary
    rw [← executeOnce_withSaves r.executor answers]
    apply telling_executeOnce (r.executor.withSaves answers) upstream
    · rfl
    · show (w.status t).canTransitionTo .running = true
      rw [here.status]
      exact startable
    · intro registered
      show (r.executor.behaviour t (w.callCount t)).outcome.isOrdinary = true
      rw [here.calls]
      apply ordinary
      rw [← here.type]
      exact registered
  have owned : ∀ {ws : World} {d : Delivery}, d ∈ ws.events t → d.event.taskId = t := by
    intro ws d hd
    have kept := (List.mem_filter.mp hd).2
    simp only [Bool.and_eq_true, beq_iff_eq] at kept
    exact kept.1
  have speaks : (executeOnce r.executor t upstream).Uses (TaskOp.Speaks t fun _ => True) :=
    uses_executeOnce r.executor t (fun _ => trivial) upstream
  have uses : (executeOnce r.executor t upstream).Uses (TaskOp.IsOf t) := speaks.mono fun o h => h.1
  refine Prog.wp_mono (wp_replay ?_ ?_ uses (alone_start t w) (.start ..)) ?_
  · rintro a b ws ⟨same, apart⟩ alone
    exact apart.alone same alone
  · intro answers o k b ws own alone replays
    refine ⟨trivial, fun _ => ⟨own, ?_⟩⟩
    rintro u e rfl ordinary blocked started some
    obtain rfl : u = t := own.1
    have telling := telling answers ordinary
    rw [replays.run answers fun _ _ => rfl] at telling
    -- the event is among those of the execution alone
    have mem : (⟨e, b.tasks u, b.stored u⟩ : Delivery) ∈
        ((r.executor.withSaves answers).run (.act (.deliver u e) k) ws).2.events u := by
      apply (events_of_run (r.executor.withSaves answers) u (k ()) _).subset
      rw [TaskOp.perform, World.events, List.filter_append, List.mem_append, ← alone.task,
        ← alone.stored]
      right
      simp [own.2 u e rfl, some]
    have named := telling.named _ mem
    exact ⟨_, List.mem_singleton_self _, own.2 u e rfl, named,
      isTerminal_of_type blocked started named, fun all => telling.stored (replays.saves all) _ mem⟩
  · rintro res b ⟨answers, ws, alone, ran, saves⟩ ordinary
    have telling := telling answers ordinary
    rw [ran] at telling
    obtain ⟨d, hd, last⟩ := telling.last
    have mem := hd
    rw [alone.events] at mem
    refine ⟨d, (List.mem_filter.mp mem).1, owned hd, telling.named d hd, ?_,
      fun all => telling.stored (saves all) d hd⟩
    rw [last, World.status, alone.task, World.status]

/-- A thread's operations on its own task, in the middle of its execution. -/
theorem announces_execute {o : TaskOp} (allowed : afterNews r (.worker t) (.task o) s)
    (running : s.stage t = .running) (speech : Speech r t o s.world) :
    Announces r (.worker t) (.task o) s where
  apart u other _ := by
    apply Hushed.apart
    apply hushed_of_ne speech.1
    rintro rfl
    exact other rfl
  started u e is _ := by
    cases is
    rw [speech.1.2 u e rfl, running]
    simp
  spoken u e is ordinary := by
    cases is
    rw [speech.1.2 u e rfl] at ordinary ⊢
    exact speech.2 u e rfl ordinary
  finish u e is := by cases is
  submit := allowed

theorem TellsEnd.later {n : Nat} (h : TellsEnd r t n w) (status : w'.status t = w.status t)
    (grows : w.deliveries <+: w'.deliveries) : TellsEnd r t n w' := by
  intro ordinary
  obtain ⟨d, hd, own, named, last, stored⟩ := h ordinary
  obtain ⟨extra, more⟩ := grows
  refine ⟨d, ?_, own, named, last.trans status.symm, stored⟩
  rw [← more, List.drop_append]
  exact List.mem_append_left _ hd

include calm in
/-- Before the future is done the last event is out. -/
theorem TellsEnd.reported {n : Nat} {e : Option Exc} (h : TellsEnd r t n s.world)
    (long : r.world.deliveries.length ≤ n) (inv : Inv M (s.setStage t (.done e)))
    (ordinary : Ordinary r t) : Reported r (news r s) t := by
  obtain ⟨d, hd, own, named, last, stored⟩ := h ordinary
  refine ⟨d, (List.drop_sublist_drop_left _ long).subset hd, own, named, ?_, stored⟩
  have ends : s.status t = ending r t := ((inv.core calm).done t e (Shared.setStage_self ..)).1
  have last : d.event.status = ending r t := last.trans ends
  rw [last]
  have unending := ordinary.ending_ne_running
  rcases r.executor.ending_cases r.world t with ends | ends | ends | ends
  · rw [ending, ends]; rfl
  · rw [ending, ends]; rfl
  · rw [ending, ends]; rfl
  · exact absurd ends unending

/-- The pool's thread for a task. -/
theorem wp_worker_chronicle :
    (worker r t).wp (SchedOp.perform r (.worker t))
      ((chronicle r).contract (Mode.afterNews calm) (.worker t)) (fun _ _ => True)
      (Scheduler.start r).shared := by
  rw [worker, Prog.bind_eq, Prog.wp_bind]
  -- the worker takes its call from the queue
  rintro a ⟨-, grows, -⟩
  refine ⟨trivial, ?_⟩
  rintro ⟨⟨enabled, allowed⟩, inv, moved⟩
  have queued : a.stage t = .queued := by
    simp only [SchedOp.enabled, Bool.and_eq_true, beq_iff_eq] at enabled
    exact enabled.1
  obtain ⟨-, startable, here⟩ := known_of_queued inv queued calm
  refine ⟨⟨moved, announces_quiet allowed (fun u => .refl u _) (by simp) (by simp)⟩, ?_⟩
  show Prog.wp _ _ (Prog.bind _ _) _ _
  rw [Prog.wp_bind]
  -- what `execute` says of its own task carries over to the run
  have executes : (liftTask (execute r.executor t ((a.submitted.lookup t).getD []))).wp
      (SchedOp.perform r (.worker t)) ((chronicle r).contract (Mode.afterNews calm) (.worker t))
      (fun _ b => b.stage t = .running ∧ TellsEnd r t a.world.deliveries.length b.world)
      { a.setStage t .running with busy := t :: a.busy } := by
    refine Prog.wp_lift Shared.world (fun b => b.stage t = .running) ?_ ?_ ?_ ?_ ?_ ?_
      (Shared.setStage_self ..) (wp_execute_chronicle startable here) fun _ _ h ends => ⟨h, ends⟩
    · rintro b c running ⟨env, -, apart⟩
      have own := env.own t rfl
      exact ⟨own.running running, own.task calm running, apart t rfl running⟩
    · exact fun _ _ => trivial
    · exact fun _ _ => trivial
    · rintro o b running ⟨⟨-, allowed⟩, -, moved⟩ speech
      exact ⟨⟨moved, announces_execute allowed running speech⟩, running⟩
    · exact fun _ _ => rfl
    · exact fun _ _ => rfl
  refine Prog.wp_caught (Prog.wp_mono executes ?_)
  rintro res b ⟨running, tells⟩
  show Prog.wp _ _ (Prog.bind _ _) _ _
  rw [Prog.wp_bind]
  -- the future is completed: the task's end has been told by now
  rintro c ⟨env, later, apart⟩
  refine ⟨trivial, ?_⟩
  rintro ⟨⟨-, allowed⟩, inv, moved⟩
  have status : c.world.status t = b.world.status t :=
    congrArg Task.status ((env.own t rfl).task calm running).task
  have tells := tells.later status later
  have announces : Announces r (.worker t) (.finish t (Prog.raised res)) c :=
    { apart := fun u _ _ => .refl u _
      started := by simp
      spoken := by simp
      finish := by
        rintro u e is ordinary
        cases is
        exact tells.reported calm grows.length_le moved.inv ordinary
      submit := allowed }
  refine ⟨⟨moved, announces⟩, ?_⟩
  have code := code_chronicle calm (.worker t)
  have rest : Keeps (SchedOp.perform r (.worker t))
      ((chronicle r).contract (Mode.afterNews calm) (.worker t)) (fun _ => True) (do
        callbacks r t (SchedOp.perform r (.worker t) (.finish t (Prog.raised res)) c).1
        once (.leave t)) :=
    (code.callbacks t _).bind fun _ => code.out (.leave t) trivial
  exact rest _ trivial

/-- The threads keep the second contracts. -/
-- at the start the log holds nothing of this run
theorem fits_chronicle : (chronicle r).Fits (Mode.afterNews calm) where
  start := by
    have none : news r (start r).shared = [] := List.drop_eq_nil_of_le (le_refl _)
    constructor
    case started => exact List.prefix_refl _
    case done =>
      intro t e done
      cases done
    case spoken =>
      intro d hd
      rw [none] at hd
      cases hd
    case cleared =>
      intro t u submitted
      exact absurd rfl submitted
    case ordered =>
      intro before d after split
      rw [none] at split
      exact absurd (congrArg List.length split) (by simp)
  refl who s := ⟨List.prefix_refl _, fun t _ _ => .refl t _⟩
  trans who a b c env h h' := by
    refine ⟨h.1.trans h'.1, ?_⟩
    intro t is running
    exact (h.2 t is running).trans (h'.2 t is ((env.own t is).running running))
  inv who o s inv chronicle moved announces := chronicle.step calm inv moved announces
  rely i j other o s inv moved announces := by
    refine ⟨?_, ?_⟩
    · rw [perform_deliveries]
      exact List.prefix_append ..
    · rintro t rfl running
      exact announces.apart t (Ne.symm other) running
  each who := by
    have ends : ∀ {p : Sched Unit} {who : Who}, Keeps (SchedOp.perform r who)
        ((chronicle r).contract (Mode.afterNews calm) who) (fun _ => True) p → p.wp
          (SchedOp.perform r who) ((chronicle r).contract (Mode.afterNews calm) who)
          (fun _ _ => True) (start r).shared := fun keeps => keeps _ trivial
    cases who with
    | main => exact ends (code_chronicle calm .main).main
    | worker t => exact wp_worker_chronicle calm
    | outside i =>
      apply ends
      show Keeps _ _ _ (canceller r i)
      have none : r.cancels[i]? = none := by rw [calm]; rfl
      unfold canceller
      rw [none]
      exact .ret ()

/-! ## The order of events -/

theorem Chronicle.inOrder (h : Chronicle r s) (inv : Inv M s)
    (ordinary : ∀ v, r.graph.isFinally v = true → ∀ u ∈ r.graph.deps v, Ordinary r u) :
    InOrder r s := by
  intro before d after split started u mem submitted
  rcases h.ordered before d after split started u ⟨mem, fun kind => ordinary _ kind u mem⟩ with
    ⟨absent, -⟩ | reported
  · exact absurd absent ((inv.coherent.mem u).mp submitted)
  · exact reported

end Order

/-- Where no task is submitted between the last write of a dependency's status and its event, and
what a finally task waits for ends in a way that the executor deals with, the terminal event of each
dependency that is executed, and its save, come before the STARTED event of the task. -/
theorem run_inOrder (r : Run) (calm : r.cancels = [])
    (ordinary : ∀ v, r.graph.isFinally v = true → ∀ u ∈ r.graph.deps v, Ordinary r u) {s : State}
    (run : Reachable r (afterNews r) s) : InOrder r s.shared := by
  have chronicle := (fits_chronicle calm).reachable run
  have sound := sound_of_reachable (M := Mode.afterNews calm) run
  exact chronicle.inOrder sound.inv ordinary

/-! ## A task that is submitted too early -/

/-- `b` needs `a`, and `c` needs nothing; all of them succeed. -/
def bystander : Run where
  graph :=
    { edges := [("a", []), ("b", ["a"]), ("c", [])]
      keys_nodup := by decide
      deps_nodup := by decide }
  executor := { handlers := fun _ => true, behaviour := fun _ _ => { outcome := .returns none } }
  world := { tasks := fun _ => {} }

instance (r : Run) (s : Shared) (t : TaskId) : Decidable (Unreported r s t) :=
  inferInstanceAs (Decidable (_ ∧ _ ∧ _))

/-- The dependencies of a task that is being submitted. -/
def upstreamOf : SchedOp → List TaskId
  | .poolSubmit _ upstream => upstream
  | _ => []

/-- The discipline at the submissions of this run. -/
def heardOf : Discipline := fun _ o s =>
  ((upstreamOf o).any fun u => Decidable.decide (Unreported bystander s u)) = false

instance (who : Who) (o : SchedOp) (s : Shared) : Decidable (heardOf who o s) :=
  inferInstanceAs (Decidable (_ = false))

theorem run_inOrder_bystander : ∃ s, Reachable bystander (afterNews bystander) s ∧
    InOrder bystander s.shared ∧ (news bystander s.shared).map (fun d => d.event.taskId) =
      ["a", "a", "b"] := by
  have ran : ∃ s ∈ (machine bystander).exec (Steps bystander heardOf)
      (List.replicate 35 .main ++ List.replicate 44 (.worker "a") ++ List.replicate 7 (.worker "b"))
      (start bystander), (news bystander s.shared).map (fun d => d.event.taskId) =
        ["a", "a", "b"] := by decide +kernel
  obtain ⟨s, hs, events⟩ := ran
  have reachable : Reachable bystander (afterNews bystander) s := by
    refine (Machine.reaches_of_exec hs).mono fun _ _ allowed o k next => ?_
    obtain ⟨enabled, heard⟩ := allowed o k next
    refine ⟨enabled, fun t upstream is => ?_⟩
    subst is
    have heard : (upstream.any fun u => Decidable.decide (Unreported bystander _ u)) = false := heard
    intro u mem unreported
    exact List.any_eq_false.mp heard u mem (by simpa using unreported)
  have ordered := run_inOrder bystander rfl (by intro v kind; cases kind) reachable
  exact ⟨s, reachable, ordered, events⟩

/-- `a` has succeeded and its event is still to come, when the end of `c` has `b` submitted; so `b`
starts before the event of `a`. -/
theorem overtaken_event : ∃ s, Reachable bystander anyTime s ∧
    Submitted s.shared "a" ∧ Submitted s.shared "b" ∧ ¬ InOrder bystander s.shared := by
  have ran : ∃ s ∈ (machine bystander).exec (Steps bystander anyTime)
      (List.replicate 35 .main ++ List.replicate 13 (.worker "a") ++
        List.replicate 41 (.worker "c") ++ List.replicate 7 (.worker "b")) (start bystander),
      ("a" ∈ s.shared.submitted.map Prod.fst ∧ "b" ∈ s.shared.submitted.map Prod.fst) ∧
        (news bystander s.shared).map (fun d => (d.event.taskId, d.event.type)) =
          [("a", .started), ("c", .started), ("c", .succeeded), ("b", .started)] := by
    decide +kernel
  obtain ⟨s, hs, ⟨first, second⟩, events⟩ := ran
  refine ⟨s, Machine.reaches_of_exec hs, first, second, fun ordered => ?_⟩
  have parts : (news bystander s.shared).map (fun d => (d.event.taskId, d.event.type)) =
      [("a", .started), ("c", .started), ("c", .succeeded)] ++ [("b", .started)] := events
  obtain ⟨before, rest, split, left, right⟩ := List.map_eq_append_iff.mp parts
  obtain ⟨d, after, rfl, is, -⟩ := List.map_eq_cons_iff.mp right
  obtain ⟨own, type⟩ := Prod.mk.injEq .. ▸ is
  obtain ⟨d', hd, own', named, terminal, -⟩ := ordered before d after split type "a"
    (by rw [own]; decide) first
  have mem : (d'.event.taskId, d'.event.type) ∈
      before.map fun d => (d.event.taskId, d.event.type) := List.mem_map_of_mem hd
  rw [left, own'] at mem
  simp at mem
  rw [mem] at named
  rw [← Option.some.inj named] at terminal
  cases terminal

end TTasks.Scheduler
