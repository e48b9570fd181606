import TTasks.Command
import TTasks.Interleave.Keep

/-!
# The pipes of a command

Each reader has its pipe to itself (`track`): what it has not read, what it has read, and what has
been published of it. `wp_readOutput` follows a reader beside the other threads, from round to round.
-/

namespace TTasks.Command

open Interleave
open Prog (Contract)

/-! ## Pipes -/

/-- What the lines carry. -/
def texts (lines : List Line) : List String := lines.map Line.text

/-- The chunks of the stream that have been published. -/
def emitted (stream : OutputStream) (output : List (OutputStream × String)) : List String :=
  (output.filter fun entry => entry.1 = stream).map Prod.snd

/-- What belongs to one reader. -/
@[ext] structure Track where
  coming : List Line
  chunks : List String
  emitted : List String
  finished : Bool

/-- What of the state belongs to the stream's reader. -/
def track (stream : OutputStream) (s : Shared) : Track where
  coming := s.coming stream
  chunks := s.chunks stream
  emitted := emitted stream s.output
  finished := s.finished stream

/-- Nothing is published that has not been read, in the pipe's order; and a reader that is over has
read and published everything. -/
structure Track.Fits (lines : List Line) (t : Track) : Prop where
  chunks : t.chunks <+: texts lines
  emitted : t.emitted <+: t.chunks
  finished : t.finished = true → t.chunks = texts lines ∧ t.emitted = texts lines

/-- Each reader is in step with its pipe. -/
def Fitting (lines : OutputStream → List Line) (s : Shared) : Prop :=
  ∀ stream, (track stream s).Fits (lines stream)

/-- A chunk is published on its own stream. -/
theorem emitted_append (stream : OutputStream) (output : List (OutputStream × String))
    (other : OutputStream) (chunk : String) : emitted stream (output ++ [(other, chunk)]) =
      emitted stream output ++ if other = stream then [chunk] else [] := by
  by_cases same : other = stream <;> simp [emitted, same]

/-- The operations of the main thread. -/
def Op.Main : Op → Prop
  | .readline _ | .append _ _ | .emitOutput _ _ | .finish _ => False
  | _ => True

/-- The main thread leaves the pipes alone. -/
theorem track_main {o : Op} (main : o.Main) (os : Os) (who : Who) (s : Shared)
    (stream : OutputStream) : track stream (sem os who o s).2 = track stream s := by
  cases o <;> first | exact main.elim | rfl

/-- The operations of the stream's reader. -/
def Op.Of (stream : OutputStream) : Op → Prop
  | .readline st | .append st _ | .emitOutput st _ | .finish st => st = stream
  | _ => False

section Own

variable {o : Op} (stream : OutputStream) (os : Os) (who : Who) (s : Shared)

/-- A reader leaves the other pipe alone. -/
theorem track_of_ne (own : o.Of stream) {other : OutputStream} (ne : other ≠ stream) :
    track other (sem os who o s).2 = track other s := by
  cases o with
  | readline st =>
    cases own
    cases coming : s.coming stream with
    | nil => simp [sem, Op.perform, coming, track]
    | cons line rest => simp [sem, Op.perform, coming, track, Function.update_of_ne ne]
  | append st chunk =>
    cases own
    exact Track.ext rfl (Function.update_of_ne ne ..) rfl rfl
  | emitOutput st chunk =>
    cases own
    refine Track.ext rfl rfl ?_ rfl
    refine (emitted_append other s.output stream chunk).trans ?_
    rw [if_neg (Ne.symm ne), List.append_nil]
    rfl
  | finish st =>
    cases own
    exact Track.ext rfl rfl rfl (Function.update_of_ne ne ..)
  | _ => exact own.elim

/-- A reader leaves the main thread's fields alone. -/
theorem registered_of_reader (own : o.Of stream) : (sem os who o s).2.registered = s.registered ∧
    (sem os who o s).2.started = s.started := by
  cases o with
  | readline st => cases coming : s.coming st <;> simp [sem, Op.perform, coming]
  | append st chunk => exact ⟨rfl, rfl⟩
  | emitOutput st chunk => exact ⟨rfl, rfl⟩
  | finish st => exact ⟨rfl, rfl⟩
  | _ => exact own.elim

/-- At the end of the pipe the reader gets an empty string. -/
theorem readline_nil (coming : s.coming stream = []) : (sem os who (.readline stream) s).1 = "" ∧
    track stream (sem os who (.readline stream) s).2 = track stream s := by
  simp [sem, Op.perform, coming, track]

/-- Otherwise it gets the next line. -/
theorem readline_cons {line : Line} {rest : List Line} (coming : s.coming stream = line :: rest) :
    (sem os who (.readline stream) s).1 = line.text ∧
      track stream (sem os who (.readline stream) s).2 = { track stream s with coming := rest } := by
  simp [sem, Op.perform, coming, track]

/-- `append` puts the chunk behind the others. -/
theorem track_append (chunk : String) : track stream (sem os who (.append stream chunk) s).2 =
    { track stream s with chunks := (track stream s).chunks ++ [chunk] } :=
  Track.ext rfl (Function.update_self ..) rfl rfl

/-- `emit_output` publishes the chunk. -/
theorem track_emitOutput (chunk : String) :
    track stream (sem os who (.emitOutput stream chunk) s).2 =
      { track stream s with emitted := (track stream s).emitted ++ [chunk] } := by
  refine Track.ext rfl rfl ?_ rfl
  refine (emitted_append stream s.output stream chunk).trans ?_
  rw [if_pos rfl]
  rfl

/-- The reader is over. -/
theorem track_finish : track stream (sem os who (.finish stream) s).2 =
    { track stream s with finished := true } :=
  Track.ext rfl rfl rfl (Function.update_self ..)

end Own

/-! ## The contracts -/

/-- What a thread relies on: a reader has its pipe to itself, and for the main thread what is over
stays over. -/
def Relies : Who → Shared → Shared → Prop
  | .main, s, s' => s'.registered = s.registered ∧ s'.started = s.started ∧
    ∀ stream, s.finished stream = true → s'.finished stream = true
  | .reader stream, s, s' => track stream s' = track stream s

/-- Nothing has been read yet. -/
theorem Relies.refl (who : Who) (s : Shared) : Relies who s s := by
  cases who with
  | main => exact ⟨rfl, rfl, fun _ h => h⟩
  | reader stream => exact rfl

/-- Two stretches of moves by the others are one. -/
theorem Relies.trans {who : Who} {a b c : Shared} (h : Relies who a b) (h' : Relies who b c) :
    Relies who a c := by
  cases who with
  | main =>
    exact ⟨h'.1.trans h.1, h'.2.1.trans h.2.1, fun stream drained => h'.2.2 _ (h.2.2 _ drained)⟩
  | reader stream => exact Eq.trans h' h

/-- A reader acts while it is not over; who is joined has been started. -/
def Ready : Who → Op → Shared → Prop
  | .reader stream, _, s => s.finished stream = false
  | .main, .join stream, s | .main, .joinInTime stream, s => s.started stream = true
  | .main, _, _ => True

section Laws

variable (context : Context) (os : Os) (lines : OutputStream → List Line)

/-- Each reader keeps in step with its pipe and leaves alone what is not its own. -/
def contract (who : Who) : Contract Op Shared where
  rely s s' := Fitting lines s' ∧ Relies who s s'
  ready := Ready who
  allow := Enabled context os who
  guar o s := Fitting lines (sem os who o s).2 ∧
    ∀ other, other ≠ who → Relies other s (sem os who o s).2

/-! ### A reader -/

section Reader

variable {context os lines} {stream : OutputStream}

/-- An operation of a reader, on the pipe as the reader left it. -/
theorem wp_reader {o : Op} (own : o.Of stream) {Q : Except Exc o.Ans → Shared → Prop} {s : Shared}
    {t : Track} (here : track stream s = t) (going : t.finished = false)
    (step : ∀ s', track stream s' = t →
      (track stream (sem os (.reader stream) o s').2).Fits (lines stream) ∧
        Q (.ok (sem os (.reader stream) o s').1) (sem os (.reader stream) o s').2) :
    (Prog.op o : Cmd o.Ans).wp (sem os (.reader stream)) (contract context os lines (.reader stream))
      Q s := by
  rintro s' ⟨fitting, same⟩
  have now : track stream s' = t := Eq.trans same here
  obtain ⟨fits, next⟩ := step s' now
  have unfinished : s'.finished stream = false := (congrArg Track.finished now).trans going
  have others : ∀ {other}, other ≠ stream →
      track other (sem os (.reader stream) o s').2 = track other s' :=
    track_of_ne stream os (.reader stream) s' own
  refine ⟨unfinished, fun _ => ⟨⟨fun st => ?_, fun who ne => ?_⟩, next⟩⟩
  · by_cases same : st = stream
    · exact same ▸ fits
    · rw [others same]
      exact fitting st
  · cases who with
    | main =>
      obtain ⟨registered, started⟩ := registered_of_reader stream os (.reader stream) s' own
      refine ⟨registered, started, fun st finished => ?_⟩
      have ne : st ≠ stream := by
        rintro rfl
        rw [unfinished] at finished
        cases finished
      exact (congrArg Track.finished (others ne)).trans finished
    | reader other => exact others fun same => ne (congrArg _ same)

/-- The loop of a reader, between two rounds: what it has read is published. -/
theorem wp_readOutput (n : Nat) (rest : List Line) {done : List String} {s : Shared}
    (rounds : rest.length < n) (split : texts (lines stream) = done ++ texts rest)
    (here : track stream s = ⟨rest, done, done, false⟩) :
    (readOutput stream n).wp (sem os (.reader stream)) (contract context os lines (.reader stream))
      (fun r s => r = .ok () ∧ s.finished stream = true) s := by
  induction n generalizing rest done s with
  | zero => exact absurd rounds (Nat.not_lt_zero _)
  | succ n ih =>
    unfold readOutput
    rw [Prog.bind_eq, Prog.wp_bind]
    cases rest with
    | nil =>
      have all : done = texts (lines stream) := by rw [split, texts, List.map_nil, List.append_nil]
      refine wp_reader (o := .readline stream) rfl here rfl fun s₁ now => ?_
      obtain ⟨answer, after⟩ :=
        readline_nil stream os (.reader stream) s₁ (congrArg Track.coming now : s₁.coming stream = [])
      rw [now] at after
      rw [answer, after]
      refine ⟨⟨by rw [all], List.prefix_refl _, nofun⟩, ?_⟩
      -- the end of the pipe
      refine wp_reader (o := .finish stream) rfl after rfl fun s₂ now => ?_
      have ended := track_finish stream os (.reader stream) s₂
      rw [now] at ended
      rw [ended]
      exact ⟨⟨by rw [all], List.prefix_refl _, fun _ => ⟨all, all⟩⟩,
        rfl, congrArg Track.finished ended⟩
    | cons line rest =>
      have split' : texts (lines stream) = (done ++ [line.text]) ++ texts rest := by
        rw [split, texts, List.map_cons, List.append_assoc]
        rfl
      refine wp_reader (o := .readline stream) rfl here rfl fun s₁ now => ?_
      obtain ⟨answer, after⟩ := readline_cons stream os (.reader stream) s₁
        (congrArg Track.coming now : s₁.coming stream = line :: rest)
      rw [now] at after
      rw [answer, after]
      refine ⟨⟨⟨_, split.symm⟩, List.prefix_refl _, nofun⟩, ?_⟩
      show (if line.text = "" then _ else _ : Cmd Unit).wp _ _ _ _
      rw [if_neg line.text_ne, Prog.bind_eq, Prog.wp_bind]
      refine wp_reader (o := .append stream line.text) rfl after rfl fun s₂ now => ?_
      have after := track_append stream os (.reader stream) s₂ line.text
      rw [now] at after
      rw [after]
      refine ⟨⟨⟨_, split'.symm⟩, List.prefix_append _ _, nofun⟩, ?_⟩
      show (Prog.bind (Prog.op (Op.emitOutput stream line.text)) _).wp _ _ _ _
      rw [Prog.wp_bind]
      refine wp_reader (o := .emitOutput stream line.text) rfl after rfl fun s₃ now => ?_
      have after := track_emitOutput stream os (.reader stream) s₃ line.text
      rw [now] at after
      rw [after]
      refine ⟨⟨⟨_, split'.symm⟩, List.prefix_refl _, nofun⟩, ?_⟩
      exact ih rest (Nat.lt_of_succ_lt_succ rounds) split' after

end Reader

end Laws

end TTasks.Command
