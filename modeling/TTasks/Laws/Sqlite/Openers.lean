import TTasks.Laws.Sqlite.Open
import Mathlib.Data.Fintype.Basic

/-!
# Stores that open one empty file

Openers only add: tables in the order of `_init_schema`, and then the version row. So every open goes
through, unless an opener reads the version after another has begun to make the tables and before
the version row is committed.
-/

namespace TTasks.Sqlite.Connection

open Interleave Relational
open Prog (Contract)

/-! ## A file in the making -/

/-- The table is there. -/
def Has (file : File) (t : KnownTable) : Prop := file.find? (.known t) ≠ none

/-- The version row is there. -/
def Stamped (file : File) : Prop := file.find? (.known .metadata) = some KnownTable.metadata.stamped

instance (file : File) : Decidable (Stamped file) :=
  inferInstanceAs (Decidable (file.find? _ = _))

/-- All six tables are there, with the row of the current version and no other. -/
def Complete (file : File) : Prop := ∀ t : KnownTable, file.find? (.known t) = some t.stamped

/-- Nothing but what openers put in, metadata first. -/
structure Young (file : File) : Prop where
  made : ∀ name table, file.find? name = some table →
    ∃ t : KnownTable, name = .known t ∧ (table = t.created ∨ table = t.stamped)
  metadata : ∀ t, Has file t → Has file .metadata

/-- An empty file is young. -/
theorem young_empty : Young .empty where
  made _ _ there := by cases there
  metadata _ has := absurd rfl has

/-- A file with the version row has the metadata table. -/
theorem Stamped.has {file : File} (stamped : Stamped file) : Has file .metadata := by
  intro absent
  rw [Stamped, absent] at stamped
  cases stamped

namespace Young

variable {file : File} (young : Young file)

include young

/-- The metadata of a young file is as it was created, or has the version row and no other. -/
theorem metadata_eq (has : Has file .metadata) :
    file.find? (.known .metadata) = some KnownTable.metadata.created ∨ Stamped file := by
  obtain ⟨table, there⟩ := Option.ne_none_iff_exists'.mp has
  obtain ⟨t, same, which⟩ := young.made _ table there
  cases same
  rcases which with rfl | rfl
  · exact .inl there
  · exact .inr there

/-- A young file with all its tables and the version row is complete. -/
theorem complete (stamped : Stamped file) (all : ∀ t, Has file t) : Complete file := by
  intro t
  by_cases here : t = .metadata
  · rw [here]
    exact stamped
  · obtain ⟨table, there⟩ := Option.ne_none_iff_exists'.mp (all t)
    obtain ⟨u, same, which⟩ := young.made _ table there
    cases same
    rw [there]
    rcases which with rfl | rfl
    · rw [KnownTable.stamped_eq_created here]
    · rfl

/-- The version that an opener reads. -/
theorem selectVersion_eq (has : Has file .metadata) :
    selectVersion file = .ok (if Stamped file then some (.text schemaVersion) else none) := by
  rcases young.metadata_eq has with new | stamped
  · have unstamped : ¬ Stamped file := by
      intro stamped
      rw [Stamped, new] at stamped
      exact absurd stamped (by decide)
    unfold selectVersion
    rw [if_neg unstamped, new]
    decide
  · unfold selectVersion
    rw [if_pos stamped, stamped]
    decide

end Young

/-- `CREATE TABLE IF NOT EXISTS` takes no table away. -/
theorem Has.create {file : File} {u : KnownTable} (has : Has file u) (t : KnownTable) :
    Has (createIfAbsent t file) u := by
  rw [Has, find?_createIfAbsent]
  split
  · exact Option.some_ne_none _
  · exact has

/-- `CREATE TABLE IF NOT EXISTS` leaves its table there. -/
theorem has_created (t : KnownTable) (file : File) : Has (createIfAbsent t file) t := by
  rw [Has, find?_createIfAbsent, if_pos rfl]
  exact Option.some_ne_none _

/-- `CREATE TABLE IF NOT EXISTS` leaves the version row. -/
theorem Stamped.create {file : File} (stamped : Stamped file) (t : KnownTable) :
    Stamped (createIfAbsent t file) := by
  rw [Stamped, find?_createIfAbsent, stamped, Option.getD_some]
  exact ite_self _

/-- A young file stays so, as long as the metadata table is created first. -/
theorem Young.create {file : File} (young : Young file) {t : KnownTable}
    (order : t = .metadata ∨ Has file .metadata) : Young (createIfAbsent t file) where
  made name table there := by
    rw [find?_createIfAbsent] at there
    split at there
    · rename_i here
      subst here
      cases old : file.find? (.known t) with
      | none =>
        rw [old, Option.getD_none] at there
        cases there
        exact ⟨t, rfl, .inl rfl⟩
      | some was =>
        rw [old, Option.getD_some] at there
        exact young.made _ _ (old.trans there)
    · exact young.made _ _ there
  metadata _ _ := by
    rcases order with rfl | has
    · exact has_created _ _
    · exact has.create t

/-- The version row is inserted, or is there already. -/
theorem insertVersion_young {file : File} (young : Young file) (has : Has file .metadata) :
    ∃ file', insertVersion file = .ok file' ∧ Young file' ∧ Stamped file' ∧
      ∀ t, Has file t → Has file' t := by
  rcases young.metadata_eq has with new | stamped
  · obtain ⟨file', inserted, found⟩ := insertVersion_ok new (by decide) (by decide)
    have stamped : Stamped file' := by
      rw [Stamped, found, if_pos rfl]
      exact congrArg some (KnownTable.fill_created .metadata)
    refine ⟨file', inserted, ⟨fun name table there => ?_, fun _ _ => stamped.has⟩, stamped,
      fun t there => ?_⟩
    · rw [found] at there
      split at there
      · rename_i here
        cases there
        exact ⟨.metadata, here, .inr (KnownTable.fill_created .metadata)⟩
      · exact young.made _ _ there
    · rw [Has, found]
      split
      · exact Option.some_ne_none _
      · exact there
  · have inserted := insertVersion_of_admits stamped (by decide) (by decide) (by decide)
    exact ⟨file, inserted, young, stamped, fun _ => id⟩

/-! ## Contracts -/

section Openers

variable {ι : Type}

/-- What holds of the file whenever a statement is about to run. -/
structure Sane (s : Shared ι) : Prop where
  young : Young s.file
  pending : ∀ p ∈ s.pending, Young p.2 ∧ Stamped p.2 ∧ ∀ t, Has p.2 t

/-- The connection has no transaction open. -/
def Idle (i : ι) (s : Shared ι) : Prop := ∀ file, s.pending ≠ some (i, file)

/-- How other connections move the file. -/
structure Grows (i : ι) (s s' : Shared ι) : Prop where
  sane : Sane s'
  has : ∀ t, Has s.file t → Has s'.file t
  stamped : Stamped s.file → Stamped s'.file
  mine : ∀ file, s'.pending = some (i, file) ↔ s.pending = some (i, file)

/-- A write waits for the transaction of another connection; and, where opens are timely, the version
is read only after its row is committed. -/
def Allowed (timely : Prop) [DecidableEq ι] (i : ι) (o : Statement) (s : Shared ι) : Prop :=
  Waits i o s ∧ (timely → o = .selectVersion → Stamped s.file)

variable [DecidableEq ι]

instance (timely : Prop) [Decidable timely] (i : ι) (o : Statement) (s : Shared ι) :
    Decidable (Allowed timely i o s) := inferInstanceAs (Decidable (_ ∧ _))

/-- What an opener relies on and keeps to. -/
def openContract (timely : Prop) (i : ι) : Contract Statement (Shared ι) where
  rely := Grows i
  allow := Allowed timely i
  guar o s :=
    match o with
    | .drop _ => False
    | .create t => s.pending = none ∧ (t = .metadata ∨ Has s.file .metadata)
    | .insertVersion => s.pending = none ∧ ∀ t, Has s.file t
    | .tableNames | .selectVersion | .warn _ | .commit | .rollback => True

/-- An opener that is over has stamped a complete file, or has read the version too early. -/
def Opened (timely : Prop) (i : ι) : Except OpenError Unit → Shared ι → Prop
  | .ok _, s => Idle i s ∧ Stamped s.file ∧ ∀ t, Has s.file t
  | .error _, s => Idle i s ∧ ¬ timely

omit [DecidableEq ι] in
/-- The others may do nothing. -/
theorem Grows.refl (i : ι) {s : Shared ι} (sane : Sane s) : Grows i s s :=
  ⟨sane, fun _ => id, id, fun _ => Iff.rfl⟩

omit [DecidableEq ι] in
/-- Two stretches of moves by the others are one. -/
theorem Grows.trans {i : ι} {a b c : Shared ι} (h : Grows i a b) (h' : Grows i b c) : Grows i a c :=
  ⟨h'.sane, fun t has => h'.has t (h.has t has), fun stamped => h'.stamped (h.stamped stamped),
    fun file => (h'.mine file).trans (h.mine file)⟩

omit [DecidableEq ι] in
/-- The others open no transaction in an opener's name. -/
theorem Idle.grows {i : ι} {a b : Shared ι} (idle : Idle i a) (h : Grows i a b) : Idle i b :=
  fun file mine => idle file ((h.mine file).mp mine)

omit [DecidableEq ι] in
/-- What an opener has come to stands while the others go on. -/
theorem Opened.grows {timely : Prop} {i : ι} {a b : Shared ι} (h : Grows i a b) :
    ∀ {r}, Opened timely i r a → Opened timely i r b
  | .ok _, ⟨idle, stamped, all⟩ => ⟨idle.grows h, h.stamped stamped, fun t => h.has t (all t)⟩
  | .error _, ⟨idle, untimely⟩ => ⟨idle.grows h, untimely⟩

/-- An opener with no transaction of its own sees the file. -/
theorem Idle.seen {i : ι} {s : Shared ι} (idle : Idle i s) : s.seen i = s.file := by
  unfold Shared.seen
  split
  · rename_i j file open'
    rw [if_neg]
    rintro rfl
    exact idle file open'
  · rfl

omit [DecidableEq ι] in
/-- A write that need not wait finds no transaction open. -/
theorem Idle.pending_eq_none {i : ι} {s : Shared ι} (idle : Idle i s) {o : Statement}
    (waits : Waits i o s) (writes : o.writes = true) : s.pending = none := by
  cases h : s.pending with
  | none => rfl
  | some p =>
    have mine : p.1 = i := waits writes p.1 (by rw [h]; rfl)
    exact absurd (h.trans (congrArg some (Prod.ext mine rfl : p = (i, p.2)))) (idle p.2)

variable (rules : DropRules)

/-- A guaranteed statement keeps the file sane and only adds to it. -/
theorem sem_sane {timely : Prop} (j : ι) {o : Statement} {s : Shared ι} (sane : Sane s)
    (guar : (openContract timely j).guar o s) :
    Sane (sem rules j o s).2 ∧ (∀ t, Has s.file t → Has (sem rules j o s).2.file t) ∧
      (Stamped s.file → Stamped (sem rules j o s).2.file) := by
  cases o with
  | tableNames | selectVersion => exact ⟨sane, fun _ => id, id⟩
  | warn message => exact ⟨⟨sane.young, sane.pending⟩, fun _ => id, id⟩
  | drop t => exact guar.elim
  | create t =>
    obtain ⟨free, order⟩ := guar
    have after : (sem rules j (.create t) s).2 = { s with file := createIfAbsent t s.file } := by
      simp only [sem, Shared.write, Shared.seen, free, Option.isSome_none, Bool.false_eq_true,
        if_false]
    rw [after]
    exact ⟨⟨sane.young.create order, sane.pending⟩, fun u has => has.create t,
      fun stamped => stamped.create t⟩
  -- the row goes into a transaction, which the file does not show yet
  | insertVersion =>
    obtain ⟨free, all⟩ := guar
    obtain ⟨file, inserted, young, stamped, keeps⟩ := insertVersion_young sane.young (all .metadata)
    have after : (sem rules j .insertVersion s).2 = { s with pending := some (j, file) } := by
      simp only [sem, Shared.seen, free, inserted]
    rw [after]
    refine ⟨⟨sane.young, ?_⟩, fun _ => id, id⟩
    intro p mem
    cases mem
    exact ⟨young, stamped, fun t => keeps t (all t)⟩
  -- the commit shows it
  | commit =>
    simp only [sem]
    split
    · rename_i k file pending
      obtain ⟨young, stamped, all⟩ := sane.pending (k, file) pending
      split
      · exact ⟨⟨young, by simp⟩, fun t _ => all t, fun _ => stamped⟩
      · exact ⟨sane, fun _ => id, id⟩
    · exact ⟨sane, fun _ => id, id⟩
  | rollback =>
    simp only [sem]
    split
    · split
      · exact ⟨⟨sane.young, by simp⟩, fun _ => id, id⟩
      · exact ⟨sane, fun _ => id, id⟩
    · exact ⟨sane, fun _ => id, id⟩

/-- It neither opens nor closes the transaction of another connection. -/
theorem sem_mine {timely : Prop} {i j : ι} (other : i ≠ j) {o : Statement} {s : Shared ι}
    (guar : (openContract timely j).guar o s) (file : File) :
    (sem rules j o s).2.pending = some (i, file) ↔ s.pending = some (i, file) := by
  have theirs : ∀ f : File, some (j, f) ≠ some (i, file) := by
    intro f same
    cases same
    exact other rfl
  -- only these three can touch a transaction, and a write finds none open
  cases o with
  | tableNames | selectVersion | warn message => rfl
  | drop t => exact guar.elim
  | create t =>
    have free : s.pending = none := guar.1
    simp only [sem, Shared.write, free, Option.isSome_none, Bool.false_eq_true, if_false]
  | insertVersion =>
    have free : s.pending = none := guar.1
    simp only [sem]
    split
    · rw [free]
      exact iff_of_false (theirs _) (fun none => by cases none)
    · rfl
  | commit =>
    simp only [sem]
    split
    · rename_i k f pending
      split
      · rename_i mine
        rw [pending, mine]
        exact iff_of_false (fun none => by cases none) (theirs f)
      · rfl
    · rfl
  | rollback =>
    simp only [sem]
    split
    · rename_i k f pending
      split
      · rename_i mine
        rw [pending, mine]
        exact iff_of_false (fun none => by cases none) (theirs f)
      · rfl
    · rfl

/-- The contracts of any two openers fit together. -/
theorem openContracts_compatible (timely : Prop) :
    Threads.Compatible (sem rules) (openContract timely : ι → _) Sane (Opened timely) where
  refl i s sane := .refl i sane
  trans i a b c h h' := h.trans h'
  inv j o s sane guar := (sem_sane rules j sane guar).1
  rely i j other o s sane guar := by
    obtain ⟨sane', has, stamped⟩ := sem_sane rules j sane guar
    exact ⟨sane', has, stamped, sem_mine rules other guar⟩
  post i r a b h opened := opened.grows h

/-! ## An opener meets its contract -/

variable {timely : Prop} {i : ι}

/-- The known tables that a connection lists. -/
theorem Young.knownPresent_iff {file : File} (young : Young file) {t : KnownTable} :
    t ∈ knownPresent (tableNames file) ↔ Has file t := by
  rw [mem_knownPresent, Has, Option.ne_none_iff_exists']
  refine exists_congr fun table => and_iff_left_of_imp fun there => ?_
  obtain ⟨u, same, which⟩ := young.made _ table there
  cases same
  rcases which with rfl | rfl
  · rfl
  · rfl

/-- The check of the version passes, where it is timely. -/
theorem wp_enforce {s : Shared ι} (idle : Idle i s) :
    (enforceSchemaVersion false).wp (sem rules i) (openContract timely i)
      (fun r s' => Idle i s' ∧ (r = .ok () ∨ ¬ timely)) s := by
  intro a toA
  have idleA := idle.grows toA
  refine ⟨trivial, fun _ => ⟨trivial, ?_⟩⟩
  simp only [sem, idleA.seen]
  split
  · exact ⟨idleA, .inl rfl⟩
  · rename_i some
    -- whatever the opener has listed, metadata is there
    have has : Has a.file .metadata := by
      obtain ⟨t, mem⟩ := List.exists_mem_of_ne_nil _ some
      exact toA.sane.young.metadata t (toA.sane.young.knownPresent_iff.mp mem)
    rw [if_pos (toA.sane.young.knownPresent_iff.mpr has)]
    intro b toB
    have idleB := idleA.grows toB
    refine ⟨trivial, fun allowed => ⟨trivial, ?_⟩⟩
    simp only [sem, idleB.seen]
    rw [toB.sane.young.selectVersion_eq (toB.has _ has)]
    by_cases stamped : Stamped b.file
    · rw [if_pos stamped]
      exact ⟨idleB, .inl rfl⟩
    · rw [if_neg stamped]
      exact ⟨idleB, .inr fun early => stamped (allowed.2 early rfl)⟩

/-- The schema script creates its tables in order and keeps those that are there, whoever made them.
-/
theorem wp_createAll (done : List KnownTable) {ts : List KnownTable} {s : Shared ι} (idle : Idle i s)
    (made : ∀ t ∈ done, Has s.file t) (order : KnownTable.metadata ∈ done ∨ ts.head? = some .metadata) :
    (createAll ts).wp (sem rules i) (openContract timely i)
      (fun r s' => r = .ok () ∧ Idle i s' ∧ ∀ t ∈ done ++ ts, Has s'.file t) s := by
  induction ts generalizing done s with
  | nil => exact ⟨rfl, idle, by simpa using made⟩
  | cons t ts ih =>
    intro a toA
    have idleA := idle.grows toA
    refine ⟨trivial, fun allowed => ?_⟩
    have free := idleA.pending_eq_none allowed.1 rfl
    have first : t = .metadata ∨ Has a.file .metadata := by
      rcases order with mem | head
      · exact .inr (toA.has _ (made _ mem))
      · exact .inl (by simpa using head)
    refine ⟨⟨free, first⟩, ?_⟩
    have after : (sem rules i (.create t) a).2 = { a with file := createIfAbsent t a.file } := by
      simp only [sem, Shared.write, idleA.seen, free, Option.isSome_none, Bool.false_eq_true,
        if_false]
    rw [after, List.append_cons]
    apply ih
    · exact idleA
    · intro u mem
      rcases List.mem_append.mp mem with old | new
      · exact (toA.has u (made u old)).create t
      · rw [List.mem_singleton.mp new]
        exact has_created t a.file
    · rcases order with mem | head
      · exact .inl (List.mem_append_left _ mem)
      · left
        have here : t = .metadata := by simpa using head
        rw [here]
        simp

/-- An open ends with a stamped and complete file, where it is timely. -/
theorem wp_initSchema {s : Shared ι} (idle : Idle i s) :
    (initSchema false).wp (sem rules i) (openContract timely i) (Opened timely i) s := by
  rw [initSchema, Prog.wp_bind, Prog.wp_tryCatch, initBody, Prog.wp_bind]
  refine Prog.wp_mono (wp_enforce rules idle) ?_
  rintro (e | ⟨⟨⟩⟩) a ⟨idleA, passed⟩
  · -- the check raises: the block rolls back, which changes nothing
    have early : ¬ timely := passed.resolve_left fun failed => by cases failed
    intro b toB
    have idleB := idleA.grows toB
    refine ⟨trivial, fun _ => ⟨trivial, ?_⟩⟩
    have after : (sem rules i .rollback b).2 = b := by
      simp only [sem]
      split
      · rename_i j file pending
        rw [if_neg]
        rintro rfl
        exact idleB file pending
      · rfl
    rw [after]
    exact ⟨idleB, early⟩
  · dsimp only [Prog.onOk]
    rw [Prog.wp_bind]
    refine Prog.wp_mono (wp_createAll rules [] idleA (by simp) (.inr rfl)) ?_
    rintro r b ⟨rfl, idleB, made⟩
    intro c toC
    have idleC := idleB.grows toC
    have all : ∀ t, Has c.file t := fun t => toC.has t (made t (by cases t <;> decide))
    refine ⟨trivial, fun allowed => ?_⟩
    have free := idleC.pending_eq_none allowed.1 rfl
    refine ⟨⟨free, all⟩, ?_⟩
    obtain ⟨file, inserted, -⟩ := insertVersion_young toC.sane.young (all .metadata)
    simp only [sem, idleC.seen, inserted]
    intro d toD
    refine ⟨trivial, fun _ => ⟨trivial, ?_⟩⟩
    have mine : d.pending = some (i, file) := (toD.mine file).mpr rfl
    obtain ⟨-, stamped, full⟩ := toD.sane.pending _ mine
    simp only [sem, mine, if_true]
    exact ⟨fun _ none => absurd none.symm (Option.some_ne_none _), stamped, full⟩

/-- At the start each opener has its contract's program in front of it. -/
theorem openers_sound (timely : Prop) :
    Threads.Sound (sem rules) (openContract timely) Sane (Opened timely) (openers ι) where
  inv := ⟨young_empty, by simp [openers]⟩
  each _ := wp_initSchema rules fun _ none => by cases none

/-! ## Every open -/

/-- Every open goes through, and the file is complete once one has, as long as no opener that has
found a table reads the version before an opener has committed it. No open runs for ever. -/
theorem opens_of_timely [Fintype ι] (rules : DropRules) :
    (∀ s, (Threads.machine (sem rules)).Reaches (Threads.Allows (Allowed True)) (openers ι) s →
      (∀ i e, s.rest i ≠ .fail e) ∧ ∀ i, s.rest i = .ret () → Complete s.shared.file) ∧
    Inevitably ((Threads.machine (sem rules)).Via (Threads.Allows Waits)) Threads.Over
      (openers ι) := by
  constructor
  · intro s run
    have sound := (openers_sound rules True).reaches (openContracts_compatible rules True) run
    refine ⟨fun i e failed => ?_, fun i returned => ?_⟩
    · have post := sound.each i
      rw [failed] at post
      exact post.2 trivial
    · have post := sound.each i
      rw [returned] at post
      exact sound.inv.young.complete post.2.1 post.2.2
  · -- a transaction that is open is that of an opener that is not over yet, and it need not wait
    have looser : ∀ (s : Threads ι Statement.Ans OpenError Unit (Shared ι)) i,
        s.Allows Waits i → s.Allows (Allowed False) i :=
      fun s i allowed o k next => ⟨allowed o k next, fun impossible => impossible.elim⟩
    refine Threads.inevitably_of_able Finset.univ
      (J := Threads.Sound (sem rules) (openContract False) Sane (Opened False))
      (fun a i b sound allowed moved =>
        sound.step (openContracts_compatible rules False) (looser a i allowed) moved)
      (fun _ i _ _ _ _ => Finset.mem_univ i) ?_ (openers_sound rules False)
    intro a sound notOver
    have acting : ∀ i, (a.rest i).Acting → (∀ j ∈ a.shared.pending.map Prod.fst, j = i) →
        ∃ i o k, a.rest i = .act o k ∧ Waits i o a.shared := by
      intro i busy own
      obtain ⟨o, k, next⟩ := busy.exists_act
      exact ⟨i, o, k, next, fun _ => own⟩
    cases pending : a.shared.pending with
    | none =>
      obtain ⟨i, busy⟩ := not_forall.mp notOver
      exact acting i (not_not.mp busy) (by simp [pending])
    | some p =>
      refine acting p.1 ?_ (by simp [pending])
      by_contra over'
      obtain ⟨r, post⟩ := sound.post over'
      have idle : Idle p.1 a.shared := by
        cases r with
        | ok _ => exact post.1
        | error _ => exact post.1
      exact idle p.2 pending

end Openers

/-- The second of two stores lists the tables when the first is through. -/
theorem opens_of_timely_inTurn : ∃ s,
    (Threads.machine (sem .noActions)).Reaches (Threads.Allows (Allowed True)) (openers Bool) s ∧
      s.rest true = .ret () ∧ Complete s.shared.file := by
  have ran : ∃ s, (Threads.machine (sem .noActions)).exec (Threads.Allows (Allowed True))
      (List.replicate 9 false ++ List.replicate 10 true) (openers Bool) = some s :=
    Option.isSome_iff_exists.mp (by decide +kernel)
  obtain ⟨s, run⟩ := ran
  have reached := Machine.reaches_of_exec run
  have returned : s.rest true = .ret () := by
    cases run
    rfl
  exact ⟨s, reached, returned, ((opens_of_timely .noActions).1 s reached).2 true returned⟩

/-! ## An opener that comes too early -/

/-- The exception that an open ended with. -/
def raised : Sql Unit → Option OpenError
  | .fail e => some e
  | _ => none

/-- Two stores open an empty file. The second lists the tables when the first has made `metadata`,
finds no version, and raises. -/
theorem open_raises : ∃ s, (Threads.machine (sem .noActions)).Reaches (Threads.Allows Waits)
    (openers Bool) s ∧ raised (s.rest true) = some (.runtimeError (mismatch none)) := by
  have ran : ∃ s ∈ (Threads.machine (sem .noActions)).exec (Threads.Allows Waits)
      [false, false, true, true, true] (openers Bool),
      raised (s.rest true) = some (.runtimeError (mismatch none)) := by decide +kernel
  obtain ⟨s, run, failed⟩ := ran
  exact ⟨s, Machine.reaches_of_exec run, failed⟩

end TTasks.Sqlite.Connection
