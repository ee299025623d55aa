import Stm32Emulator.Foundation.Lines
import Stm32Emulator.Foundation.QueueLedger
import Stm32Emulator.Foundation.Run
import Stm32Emulator.Foundation.Word

/-!
# The console of the launcher

The launcher runs the emulator as a child process.  One thread for each output stream of the child
sends its lines into a channel, and the user interface takes them out of it and keeps the newest.
The child, both threads and the user interface take their steps in any order.  Whatever the order,
the lines of each stream arrive complete and in order until the first that is not UTF-8; when `stop`
has returned none is missing.
-/

namespace Stm32Emulator.Launcher

open Function

/-! ## Lines -/

section

variable {α β : Type*}

/-- The images of the items before the first that has none. -/
def mapWhile (f : α → Option β) : List α → List β
  | [] => []
  | a :: as => (f a).elim [] fun b => b :: mapWhile f as

end

def newline : U8 := 10

/-- A line without the carriage return before the end. -/
def stripCr (line : List U8) : List U8 :=
  if line.getLast? = some 13#8 then line.dropLast else line

def fromUtf8 (bytes : List U8) : Option String :=
  String.fromUTF8? ⟨(bytes.map UInt8.ofBitVec).toArray⟩

/-- The next line of a pipe; `none` while the thread waits for it.  At the end of the pipe the last
line needs no end, and after it there is none. -/
def readLine (closed : Bool) (unread : List U8) : Option (Option (List U8) × List U8) :=
  match unread.findIdx? (fun b => decide (b = newline)) with
  | some pos => some (some (stripCr (unread.take pos)), unread.drop (pos + 1))
  | none =>
    if closed = false then none
    else if unread = [] then some (none, [])
    else some (some unread, [])

/-! ## The threads -/

inductive OutputStream where
  | stdout
  | stderr
  deriving DecidableEq, Repr

structure OutputLine where
  stream : OutputStream
  text : String
  deriving DecidableEq, Repr

def maxOutputLines : ℕ := 2000

/-- What the user interface is doing. -/
inductive UiPoint where
  | idle
  /-- In `poll_output`. -/
  | polling
  /-- In `stop`, after the child has been waited for. -/
  | joining
  /-- In the `poll_output` at the end of `stop`. -/
  | draining
  deriving DecidableEq, Repr

structure RunningEmulator where
  childAlive : Bool
  /-- The bytes of the pipe that are not part of a line that has been read, while the thread
  runs. -/
  readers : OutputStream → Option (List U8)
  channel : List OutputLine
  output : List OutputLine
  point : UiPoint
  /-- A call of `stop` has returned. -/
  stopped : Bool

namespace RunningEmulator

def spawn : RunningEmulator where
  childAlive := true
  readers := fun _ => some []
  channel := []
  output := []
  point := .idle
  stopped := false

/-- The thread reads a line, and sends it if it is text.  Otherwise the thread ends. -/
def readerStep (s : RunningEmulator) (stream : OutputStream) : Option RunningEmulator :=
  (s.readers stream).bind fun unread =>
    (readLine (!s.childAlive) unread).map fun r =>
      match r.1.bind fromUtf8 with
      | some text =>
        { s with
          readers := update s.readers stream (some r.2), channel := s.channel ++ [⟨stream, text⟩] }
      | none => { s with readers := update s.readers stream none }

/-- The newest lines are kept. -/
def pushLine (output : List OutputLine) (line : OutputLine) : List OutputLine :=
  (if output.length = maxOutputLines then output.tail else output) ++ [line]

/-- One round of the loop of `poll_output`, which returns to `after`. -/
def receive (s : RunningEmulator) (after : RunningEmulator) : RunningEmulator :=
  match s.channel with
  | line :: channel => { s with channel := channel, output := pushLine s.output line }
  | [] => after

end RunningEmulator

inductive ConsoleAction where
  /-- The child writes to a stream. -/
  | write (stream : OutputStream) (bytes : List U8)
  /-- The child ends by itself. -/
  | exit
  | read (stream : OutputStream)
  | pollOutput
  | tryRecv
  | stop
  | join
  deriving DecidableEq, Repr

/-- One action of the child, of a thread or of the user interface. -/
def consoleStep (s : RunningEmulator) : ConsoleAction → Option RunningEmulator
  | .write stream bytes =>
    -- what is written after the thread has closed its end of the pipe is gone
    if s.childAlive then
      some { s with readers := update s.readers stream ((s.readers stream).map (· ++ bytes)) }
    else none
  | .exit => if s.childAlive then some { s with childAlive := false } else none
  | .read stream => s.readerStep stream
  | .pollOutput => if s.point = .idle then some { s with point := .polling } else none
  | .tryRecv =>
    if s.point = .polling then some (s.receive { s with point := .idle })
    else if s.point = .draining then some (s.receive { s with point := .idle, stopped := true })
    else none
  | .stop =>
    if s.point = .idle then some { s with childAlive := false, point := .joining } else none
  | .join =>
    if s.point = .joining ∧ s.readers .stdout = none ∧ s.readers .stderr = none then
      some { s with point := .draining }
    else none

/-! ## What the child has written, and what has arrived -/

structure ConsoleRecord where
  /-- Everything that the child has written. -/
  written : OutputStream → List U8
  /-- The lines that the user interface has taken out of the channel. -/
  received : List OutputLine

def ConsoleRecord.next (r : ConsoleRecord) (s : RunningEmulator) : ConsoleAction → ConsoleRecord
  | .write stream bytes => { r with written := update r.written stream (r.written stream ++ bytes) }
  | .tryRecv => { r with received := r.received ++ s.channel.take 1 }
  | _ => r

/-- The launcher with the record. -/
def recordedStep : RunningEmulator × ConsoleRecord → ConsoleAction →
    Option (RunningEmulator × ConsoleRecord) :=
  withGhost consoleStep ConsoleRecord.next

/-- A child that has just been started. -/
def started : RunningEmulator × ConsoleRecord := (.spawn, ⟨fun _ => [], []⟩)

/-- The texts of one stream. -/
def texts (stream : OutputStream) (lines : List OutputLine) : List String :=
  (lines.filter fun line => decide (line.stream = stream)).map OutputLine.text

/-- The lines of a stream that has come to its end. -/
def allLines (bytes : List U8) : List (List U8) :=
  (Lines.complete newline bytes).map stripCr ++
    if Lines.rest newline bytes = [] then [] else [Lines.rest newline bytes]

/-- The text of a stream: its lines until the first that is not UTF-8. -/
def readable (bytes : List U8) : List String := mapWhile fromUtf8 (allLines bytes)

/-! ## Reading line by line -/

section

variable {line bytes rest : List U8}

@[simp] lemma readable_nil : readable [] = [] := rfl

/-- The first line of a stream. -/
lemma readable_line (h : newline ∉ line) (bytes : List U8) :
    readable (line ++ newline :: bytes) = (fromUtf8 (stripCr line)).elim [] fun text =>
    text :: readable bytes := by
  unfold readable allLines
  rw [Lines.complete_line h, Lines.rest_line h]
  rfl

/-- A stream of one line that is not ended. -/
lemma readable_of_not_mem (h : newline ∉ line) (hne : line ≠ []) :
    readable line = (fromUtf8 line).elim [] fun text => [text] := by
  unfold readable allLines
  rw [Lines.complete_of_not_mem h, Lines.rest_of_not_mem h, if_neg hne]
  rfl

/-- A line is read up to its end; only at the end of the pipe the rest is one. -/
lemma readLine_eq_some {closed : Bool} {unread : List U8} {r : Option (List U8) × List U8}
    (h : readLine closed unread = some r) :
    (∃ line, newline ∉ line ∧ unread = line ++ newline :: r.2 ∧ r.1 = some (stripCr line)) ∨
      closed = true ∧ r.2 = [] ∧ newline ∉ unread ∧
      r.1 = if unread = [] then none else some unread := by
  unfold readLine at h
  split at h
  · next pos hpos =>
    obtain ⟨heq, hmem⟩ := Lines.eq_line_of_findIdx? hpos
    cases h
    exact Or.inl ⟨_, hmem, heq, rfl⟩
  · next hnone =>
    have hmem := Lines.not_mem_of_findIdx?_eq_none hnone
    split_ifs at h with hclosed hempty
    · cases h
      exact Or.inr ⟨Bool.not_eq_false _ |>.mp hclosed, rfl, hmem, (if_pos hempty).symm⟩
    · cases h
      exact Or.inr ⟨Bool.not_eq_false _ |>.mp hclosed, rfl, hmem, (if_neg hempty).symm⟩

end

/-! ## The invariant of a stream -/

/-- A thread that runs has read some of what was written, and sent all its lines; or it has read
everything of a child that has ended. -/
def Reading (alive : Bool) (written : List U8) (sent : List String) (unread : List U8) : Prop :=
  (∃ consumed, written = consumed ++ unread ∧
    ∀ bytes, readable (consumed ++ bytes) = sent ++ readable bytes) ∨
    alive = false ∧ unread = [] ∧ readable written = sent

/-- A thread that has ended has met a line that is not text, or the end of the stream. -/
def Ended (alive : Bool) (written : List U8) (sent : List String) : Prop :=
  (∀ later, readable (written ++ later) = sent) ∨ alive = false ∧ readable written = sent

/-- The account of one stream. -/
def StreamAccount (alive : Bool) (reader : Option (List U8)) (written : List U8)
    (sent : List String) : Prop :=
  reader.elim (Ended alive written sent) (Reading alive written sent)

namespace StreamAccount

variable {alive : Bool} {reader : Option (List U8)} {written unread : List U8} {sent : List String}

/-- The child writes. -/
lemma write (h : StreamAccount true reader written sent) (bytes : List U8) :
    StreamAccount true (reader.map (· ++ bytes)) (written ++ bytes) sent := by
  cases reader with
  | none =>
    rcases h with h | ⟨halive, -⟩
    · refine Or.inl fun later => ?_
      rw [List.append_assoc]
      exact h _
    · cases halive
  | some unread =>
    rcases h with ⟨consumed, rfl, hread⟩ | ⟨halive, -⟩
    · exact Or.inl ⟨consumed, List.append_assoc .., hread⟩
    · cases halive

/-- The child ends. -/
lemma died (h : StreamAccount alive reader written sent) :
    StreamAccount false reader written sent := by
  cases reader with
  | none =>
    rcases h with h | ⟨-, h⟩
    · exact Or.inl h
    · exact Or.inr ⟨rfl, h⟩
  | some unread =>
    rcases h with h | ⟨-, h⟩
    · exact Or.inl h
    · exact Or.inr ⟨rfl, h⟩

/-- The thread reads a line that is text, or ends. -/
lemma read (h : StreamAccount alive (some unread) written sent) {r : Option (List U8) × List U8}
    (hread : readLine (!alive) unread = some r) :
    (∀ text, r.1.bind fromUtf8 = some text →
      StreamAccount alive (some r.2) written (sent ++ [text])) ∧
      (r.1.bind fromUtf8 = none → StreamAccount alive none written sent) := by
  rcases readLine_eq_some hread with ⟨line, hmem, hunread, hline⟩ | ⟨hclosed, hrest, hmem, hline⟩
  · -- a line that is ended: the pipe was not at its end
    rcases h with ⟨consumed, rfl, hconsumed⟩ | ⟨-, rfl, -⟩
    · have hlater (bytes : List U8) : readable (consumed ++ (line ++ newline :: bytes)) =
          sent ++ (fromUtf8 (stripCr line)).elim [] fun text => text :: readable bytes := by
        rw [hconsumed, readable_line hmem]
      rw [hline, Option.bind_some]
      refine ⟨fun text htext => Or.inl ⟨consumed ++ (line ++ [newline]), ?_, fun bytes => ?_⟩,
        fun hnone => Or.inl ?_⟩
      · rw [hunread, List.append_assoc, List.append_assoc, List.singleton_append]
      · have hbytes := hlater bytes
        rw [htext, Option.elim_some] at hbytes
        simpa only [List.append_assoc, List.singleton_append] using hbytes
      · intro later
        rw [hunread, List.append_assoc, List.append_assoc, List.cons_append, hlater, hnone,
          Option.elim_none, List.append_nil]
    · exact absurd hunread (by simp)
  · -- the end of the stream
    have halive : alive = false := by simpa using hclosed
    rw [hline, hrest]
    by_cases hempty : unread = []
    · rw [if_pos hempty]
      refine ⟨fun text htext => (by cases htext), fun _ => Or.inr ⟨halive, ?_⟩⟩
      rcases h with ⟨consumed, rfl, hconsumed⟩ | ⟨-, -, h⟩
      · rw [hconsumed, hempty, readable_nil, List.append_nil]
      · exact h
    · rcases h with ⟨consumed, rfl, hconsumed⟩ | ⟨-, h, -⟩
      · have hall := hconsumed unread
        rw [readable_of_not_mem hmem hempty] at hall
        rw [if_neg hempty, Option.bind_some]
        refine ⟨fun text htext => Or.inr ⟨halive, rfl, ?_⟩, fun hnone => Or.inr ⟨halive, ?_⟩⟩
        · rw [hall, htext, Option.elim_some]
        · rw [hall, hnone, Option.elim_none, List.append_nil]
      · exact absurd h hempty

/-- What has been sent is the beginning of what can be read. -/
lemma initial (h : StreamAccount alive reader written sent) : sent <+: readable written := by
  cases reader with
  | none =>
    rcases h with h | ⟨-, h⟩
    · have hall := h []
      rw [List.append_nil] at hall
      rw [hall]
    · rw [h]
  | some unread =>
    rcases h with ⟨consumed, rfl, hconsumed⟩ | ⟨-, -, h⟩
    · rw [hconsumed]
      exact List.prefix_append _ _
    · rw [h]

/-- A thread that has ended has sent all that can be read. -/
lemma complete (h : StreamAccount alive none written sent) : readable written = sent := by
  rcases h with h | ⟨-, h⟩
  · have hall := h []
    rwa [List.append_nil] at hall
  · exact h

end StreamAccount

/-! ## The invariant of the launcher -/

lemma texts_append (stream : OutputStream) (lines lines' : List OutputLine) :
    texts stream (lines ++ lines') = texts stream lines ++ texts stream lines' := by
  unfold texts
  rw [List.filter_append, List.map_append]

/-- A line belongs to its own stream. -/
lemma texts_singleton (stream stream' : OutputStream) (text : String) :
    texts stream [⟨stream', text⟩] = if stream' = stream then [text] else [] := by
  unfold texts
  split
  · next h => rw [List.filter_singleton, decide_eq_true h]; rfl
  · next h => rw [List.filter_singleton, decide_eq_false h]; rfl

structure ConsoleInvariant (s : RunningEmulator) (r : ConsoleRecord) : Prop where
  output : s.output = keepLast maxOutputLines r.received
  account : ∀ stream, StreamAccount s.childAlive (s.readers stream) (r.written stream)
    (texts stream (r.received ++ s.channel))
  draining : s.point = .draining → ∀ stream, s.readers stream = none
  stopped : s.stopped = true → (∀ stream, s.readers stream = none) ∧ s.channel = []

namespace ConsoleInvariant

variable {s s' : RunningEmulator} {r : ConsoleRecord}

lemma started : ConsoleInvariant RunningEmulator.spawn ⟨fun _ => [], []⟩ where
  output := rfl
  account _ := Or.inl ⟨[], rfl, fun _ => rfl⟩
  draining h := by cases h
  stopped h := by cases h

/-- A thread takes a step. -/
lemma readerStep (h : ConsoleInvariant s r) {stream : OutputStream}
    (hstep : s.readerStep stream = some s') :
    ConsoleInvariant s' r := by
  obtain ⟨unread, hunread, hstep⟩ := Option.bind_eq_some_iff.mp hstep
  obtain ⟨read, hread, hs'⟩ := Option.map_eq_some_iff.mp hstep
  have hruns : ¬ ∀ stream, s.readers stream = none := fun hall => by
    rw [hall] at hunread
    cases hunread
  have haccount := h.account stream
  rw [hunread] at haccount
  obtain ⟨htext, hend⟩ := haccount.read hread
  have hdraining : s.point ≠ .draining := fun hpoint => hruns (h.draining hpoint)
  have hstopped : s.stopped ≠ true := fun hstopped => hruns (h.stopped hstopped).1
  split at hs'
  · next text hline =>
    subst hs'
    refine ⟨h.output, fun other => ?_, fun hpoint => absurd hpoint hdraining,
      fun h => absurd h hstopped⟩
    dsimp only
    rw [← List.append_assoc, texts_append, texts_singleton]
    by_cases hother : other = stream
    · subst hother
      rw [update_self, if_pos rfl]
      exact htext text hline
    · rw [update_of_ne hother, if_neg (Ne.symm hother), List.append_nil]
      exact h.account other
  · next hline =>
    subst hs'
    refine ⟨h.output, fun other => ?_, fun hpoint => absurd hpoint hdraining,
      fun h => absurd h hstopped⟩
    dsimp only
    by_cases hother : other = stream
    · subst hother
      rw [update_self]
      exact hend hline
    · rw [update_of_ne hother]
      exact h.account other

/-- A line is taken out of the channel, or there is none. -/
lemma receive (h : ConsoleInvariant s r) {after : RunningEmulator}
    (hafter : s.channel = [] → ConsoleInvariant after r) :
    ConsoleInvariant (s.receive after) { r with received := r.received ++ s.channel.take 1 } := by
  unfold RunningEmulator.receive
  split
  · next line channel hchannel =>
    rw [hchannel]
    refine ⟨?_, fun stream => ?_, h.draining, fun hstopped => ?_⟩
    · dsimp only
      have hlength : s.output.length ≤ maxOutputLines := by
        rw [h.output]
        exact length_keepLast_le _ _
      have hpush : RunningEmulator.pushLine s.output line =
          keepLast maxOutputLines (s.output ++ [line]) :=
        pushBounded_eq_keepLast (by decide) hlength line
      rw [hpush, h.output, keepLast_append]
      rfl
    · have haccount := h.account stream
      rw [hchannel] at haccount
      dsimp only
      rwa [List.take_succ_cons, List.take_zero, List.append_assoc, List.singleton_append]
    · have hempty := (h.stopped hstopped).2
      rw [hchannel] at hempty
      cases hempty
  · next hchannel =>
    rw [hchannel, List.take_nil, List.append_nil]
    exact hafter hchannel

/-- **Every action keeps the invariant.** -/
lemma step (h : ConsoleInvariant s r) {a : ConsoleAction} (hstep : consoleStep s a = some s') :
    ConsoleInvariant s' (r.next s a) := by
  cases a with
  | write stream bytes =>
    simp only [consoleStep] at hstep
    split_ifs at hstep with halive
    cases hstep
    have hnone : (∀ other, s.readers other = none) → ∀ other,
        update s.readers stream ((s.readers stream).map (· ++ bytes)) other = none := by
      intro hall other
      by_cases hother : other = stream
      · subst hother
        rw [update_self, hall, Option.map_none]
      · rw [update_of_ne hother, hall]
    refine ⟨h.output, fun other => ?_, fun hpoint => hnone (h.draining hpoint),
      fun hstopped => ⟨hnone (h.stopped hstopped).1, (h.stopped hstopped).2⟩⟩
    have haccount := h.account other
    dsimp only [ConsoleRecord.next]
    rw [halive] at haccount ⊢
    by_cases hother : other = stream
    · subst hother
      rw [update_self, update_self]
      exact haccount.write bytes
    · rw [update_of_ne hother, update_of_ne hother]
      exact haccount
  | exit =>
    simp only [consoleStep] at hstep
    split_ifs at hstep
    cases hstep
    exact ⟨h.output, fun stream => (h.account stream).died, h.draining, h.stopped⟩
  | read stream => exact h.readerStep hstep
  | pollOutput =>
    simp only [consoleStep] at hstep
    split_ifs at hstep
    cases hstep
    exact ⟨h.output, h.account, nofun, h.stopped⟩
  | tryRecv =>
    simp only [consoleStep] at hstep
    split_ifs at hstep with hpolling hdraining
    · cases hstep
      exact h.receive fun hchannel => ⟨h.output, h.account, nofun, h.stopped⟩
    · cases hstep
      exact h.receive fun hchannel =>
        ⟨h.output, h.account, nofun, fun _ => ⟨h.draining hdraining, hchannel⟩⟩
  | stop =>
    simp only [consoleStep] at hstep
    split_ifs at hstep
    cases hstep
    exact ⟨h.output, fun stream => (h.account stream).died, nofun, h.stopped⟩
  | join =>
    simp only [consoleStep] at hstep
    split_ifs at hstep with hended
    cases hstep
    refine ⟨h.output, h.account, fun _ stream => ?_, h.stopped⟩
    cases stream with
    | stdout => exact hended.2.1
    | stderr => exact hended.2.2

end ConsoleInvariant

/-! ## Whole runs -/

lemma length_texts (lines : List OutputLine) :
    (texts .stdout lines).length + (texts .stderr lines).length = lines.length := by
  induction lines with
  | nil => rfl
  | cons line lines ih =>
    rw [← List.singleton_append, texts_append, texts_append, List.length_append, List.length_append,
      List.length_append, ← ih]
    rcases line with ⟨_ | _, text⟩
    · simp only [texts_singleton, reduceCtorEq, if_true, if_false, List.length_singleton,
        List.length_nil]
      omega
    · simp only [texts_singleton, reduceCtorEq, if_true, if_false, List.length_singleton,
        List.length_nil]
      omega

/-- **The console shows the output of the emulator.**  In every run, whatever the order in which the
child, the threads and the user interface take their steps, the console is the newest part of what
the user interface has received, and of each stream that is the beginning of what can be read of it.
When a call of `stop` has returned without an error it is all of it; the console shows it all if
there are no more lines than it keeps. -/
theorem console_shows_output {as : List ConsoleAction} {s : RunningEmulator} {r : ConsoleRecord}
    (hrun : Run (stepRel recordedStep) started as (s, r)) :
    s.output = keepLast maxOutputLines r.received ∧
      (∀ stream, texts stream r.received <+: readable (r.written stream)) ∧
      (s.stopped = true → ∀ stream, texts stream r.received = readable (r.written stream)) ∧
      (s.stopped = true →
        (readable (r.written .stdout)).length + (readable (r.written .stderr)).length ≤
          maxOutputLines →
          ∀ stream, texts stream s.output = readable (r.written stream)) := by
  have hinv : ConsoleInvariant s r := by
    refine hrun.invariant_state (I := fun p => ConsoleInvariant p.1 p.2) .started ?_
    rintro ⟨s, r⟩ ⟨s', r'⟩ a h hstep
    obtain ⟨hstep, rfl⟩ := withGhost_eq_some.mp hstep
    exact h.step hstep
  have hstopped (hstopped : s.stopped = true) (stream : OutputStream) :
      texts stream r.received = readable (r.written stream) := by
    obtain ⟨hreaders, hchannel⟩ := hinv.stopped hstopped
    have haccount := hinv.account stream
    rw [hreaders, hchannel, List.append_nil] at haccount
    exact haccount.complete.symm
  refine ⟨hinv.output, fun stream => ?_, hstopped, fun hstop hfits stream => ?_⟩
  · have hinitial := (hinv.account stream).initial
    rw [texts_append] at hinitial
    exact (List.prefix_append _ _).trans hinitial
  · rw [← hstopped hstop, ← hstopped hstop, length_texts] at hfits
    rw [hinv.output, keepLast_of_length_le hfits, hstopped hstop]

/-- The emulator writes half a line, the interface looks, and the rest comes just before it is
stopped. -/
def sampleConsole : List ConsoleAction :=
  [.write .stdout [0x41, 0x42, 10, 0x43], .read .stdout, .pollOutput, .tryRecv, .tryRecv,
    .write .stderr [0x21, 13, 10], .write .stdout [0x44], .read .stderr, .stop, .read .stdout,
    .read .stdout, .read .stderr, .join, .tryRecv, .tryRecv, .tryRecv]

/-- All three lines are shown. -/
theorem console_shows_output_sample :
    ∃ s r, Run (stepRel recordedStep) started sampleConsole (s, r) ∧ s.stopped = true ∧
      texts .stdout s.output = ["AB", "CD"] ∧ texts .stderr s.output = ["!"] := by
  have hexec : (sampleConsole.foldlM recordedStep started).map
      (fun p => (p.1.stopped, p.2.written .stdout, p.2.written .stderr)) =
        some (true, [0x41, 0x42, 10, 0x43, 0x44], [0x21, 13, 10]) := by
    decide +kernel
  obtain ⟨⟨s, r⟩, hexec, hvalues⟩ := Option.map_eq_some_iff.mp hexec
  obtain ⟨hstopped, hvalues⟩ := Prod.mk.inj hvalues
  obtain ⟨hstdout, hstderr⟩ := Prod.mk.inj hvalues
  have hrun := Run.of_foldlM hexec
  have hshown := (console_shows_output hrun).2.2.2 hstopped
  dsimp only at hstdout hstderr
  rw [hstdout, hstderr] at hshown
  have hreadout : readable [0x41, 0x42, 10, 0x43, 0x44] = ["AB", "CD"] := by decide +kernel
  have hreaderr : readable [0x21, 13, 10] = ["!"] := by decide +kernel
  rw [hreadout, hreaderr] at hshown
  refine ⟨s, r, hrun, hstopped, ?_, ?_⟩
  · rw [hshown (by decide), hstdout, hreadout]
  · rw [hshown (by decide), hstderr, hreaderr]

end Stm32Emulator.Launcher
