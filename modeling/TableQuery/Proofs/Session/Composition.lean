import TableQuery.Session.Dialogue
import TableQuery.Proofs.Outcome

/-!
Dialogues over inputs that are continued. What a line gives depends on the session and on that line
alone, so a dialogue over more lines writes what it wrote before and goes on, unless one of the
lines before has ended it.
-/

namespace TableQuery

def Reply.out : Reply → String
  | output text => text
  | _ => ""

def Reply.err : Reply → String
  | complaint text => text
  | _ => ""

def IsUtf8 (line : List UInt8) : Prop := ∃ text : String, line = Utf8.encode text.toList

def GoesOn (line : List UInt8) : Prop :=
  ∃ text : String, line = Utf8.encode text.toList ∧ trimmed text ≠ "exit" ∧ trimmed text ≠ "quit"

section Lines

open Delimited

/-- After a line feed, or at the very start, no line has begun. -/
def IsWholeLines (bytes : List UInt8) : Prop := bytes = [] ∨ bytes.getLast? = some lineFeed

instance (bytes : List UInt8) : Decidable (IsWholeLines bytes) :=
  inferInstanceAs (Decidable (bytes = [] ∨ bytes.getLast? = some lineFeed))

theorem is_whole_lines_of_cons {byte : UInt8} {bytes : List UInt8}
    (whole : IsWholeLines (byte :: bytes)) : IsWholeLines bytes := by
  cases bytes with
  | nil => exact .inl rfl
  | cons next rest =>
      rcases whole with empty | last
      · cases empty
      · rw [List.getLast?_cons_cons] at last
        exact .inr last

/-- A line may have begun before the bytes, but not if there are none to end it. The induction is on
the bytes, for any line that has begun. -/
theorem split_lines_from_append_of_whole_lines {bytes : List UInt8} (whole : IsWholeLines bytes)
    (begun rest : List UInt8) (fresh : bytes = [] → begun = []) :
    splitLinesFrom begun (bytes ++ rest) = splitLinesFrom begun bytes ++ splitLines rest := by
  induction bytes generalizing begun with
  | nil =>
      rw [fresh rfl]
      rfl
  | cons byte bytes induction =>
      have later := induction (is_whole_lines_of_cons whole)
      by_cases feeds : byte = lineFeed
      · rw [List.cons_append, splitLinesFrom, splitLinesFrom, if_pos feeds, if_pos feeds,
          later [] fun _ => rfl, List.cons_append]
      · have more : bytes ≠ [] := by
          rintro rfl
          rcases whole with empty | last
          · cases empty
          · exact feeds (Option.some.inj last)
        rw [List.cons_append, splitLinesFrom, splitLinesFrom, if_neg feeds, if_neg feeds]
        apply later
        intro empty
        exact absurd empty more

theorem split_lines_append {bytes : List UInt8} (whole : IsWholeLines bytes) (rest : List UInt8) :
    splitLines (bytes ++ rest) = splitLines bytes ++ splitLines rest :=
  split_lines_from_append_of_whole_lines whole [] rest fun _ => rfl

end Lines

namespace Session

/-- Everything that the dialogue writes to the output from the prompt before these lines up to the
reply to the last of them. -/
def written (session : Session) (prompting : Bool) (lines : List (List UInt8)) : String :=
  String.join (lines.map fun line => promptText prompting ++ (session.replyTo line).out)

def complaints (session : Session) (lines : List (List UInt8)) : String :=
  String.join (lines.map fun line => (session.replyTo line).err)

section Replies

variable (session : Session) {line : List UInt8}

theorem reply_to_trimmed_eq_leave_iff (text : String) :
    session.replyToTrimmed text = .leave ↔ text = "exit" ∨ text = "quit" := by
  rw [replyToTrimmed]
  split
  · simp_all
  · split
    · simp_all
    · repeat' split
      all_goals simp_all

theorem reply_to_eq_unreadable_iff : session.replyTo line = .unreadable ↔ ¬IsUtf8 line := by
  constructor
  · rintro failed ⟨text, rfl⟩
    rw [reply_to_encode] at failed
    exact session.reply_to_trimmed_ne_unreadable _ failed
  · intro invalid
    cases decoded : Utf8.decode line with
    | error index => rw [replyTo, decoded]
    | ok text =>
        have encoded := Utf8.decode_eq_ok_iff.1 decoded
        exact absurd ⟨String.ofList text, by rw [String.toList_ofList, encoded]⟩ invalid

theorem goes_on_iff : GoesOn line ↔
    session.replyTo line ≠ .leave ∧ session.replyTo line ≠ .unreadable := by
  constructor
  · rintro ⟨text, rfl, noExit, noQuit⟩
    rw [reply_to_encode, ← trimmed, Ne, reply_to_trimmed_eq_leave_iff]
    exact ⟨not_or.2 ⟨noExit, noQuit⟩, session.reply_to_trimmed_ne_unreadable _⟩
  · rintro ⟨stays, readable⟩
    rw [Ne, reply_to_eq_unreadable_iff, not_not] at readable
    rcases readable with ⟨text, rfl⟩
    rw [reply_to_encode, ← trimmed, Ne, reply_to_trimmed_eq_leave_iff, not_or] at stays
    exact ⟨text, rfl, stays⟩

end Replies

section Runs

variable (session : Session) (prompting : Bool) {line : List UInt8} {lines : List (List UInt8)}

theorem converse_cons_of_goes_on (goesOn : GoesOn line) (later : List (List UInt8)) :
    session.converse prompting (line :: later) =
      .after (promptText prompting ++ (session.replyTo line).out) (session.replyTo line).err
        (session.converse prompting later) := by
  rcases (session.goes_on_iff).1 goesOn with ⟨stays, readable⟩
  rw [converse]
  cases reply : session.replyTo line with
  | leave => exact absurd reply stays
  | unreadable => exact absurd reply readable
  | silent => simp [Transcript.after, Reply.out, Reply.err]
  | output text => simp [Transcript.after, Reply.out, Reply.err, String.append_assoc]
  | complaint text => simp [Transcript.after, Reply.out, Reply.err]

theorem converse_append_of_goes_on (goOn : ∀ line ∈ lines, GoesOn line)
    (later : List (List UInt8)) :
    session.converse prompting (lines ++ later) =
      .after (session.written prompting lines) (session.complaints lines)
        (session.converse prompting later) := by
  induction lines with
  | nil => simp [written, complaints, Transcript.after]
  | cons line lines induction =>
      rw [List.forall_mem_cons] at goOn
      rw [List.cons_append, session.converse_cons_of_goes_on prompting goOn.1, induction goOn.2]
      simp [written, complaints, Transcript.after, String.append_assoc]

/-- A line that does not go on is the last one, whatever stands behind it. -/
theorem converse_cons_of_not_goes_on (ends : ¬GoesOn line) :
    ∃ invalid : Bool, (invalid = true ↔ ¬IsUtf8 line) ∧ ∀ later,
      session.converse prompting (line :: later) = ⟨promptText prompting, "", invalid⟩ := by
  by_cases readable : IsUtf8 line
  · have leaves : session.replyTo line = .leave := by
      have readReply : session.replyTo line ≠ .unreadable := by
        rw [Ne, reply_to_eq_unreadable_iff, not_not]
        exact readable
      rw [session.goes_on_iff, not_and_or, not_not] at ends
      exact ends.resolve_right fun other => other readReply
    refine ⟨false, by simp [readable], fun later => ?_⟩
    rw [converse, leaves]
    simp [Transcript.after, Transcript.ended]
  · have unreadable := session.reply_to_eq_unreadable_iff.2 readable
    refine ⟨true, by simp [readable], fun later => ?_⟩
    rw [converse, unreadable]
    simp [Transcript.after, Transcript.broken]

end Runs

end Session

theorem exists_first_of_not_goes_on {lines : List (List UInt8)}
    (stops : ∃ line ∈ lines, ¬GoesOn line) :
    ∃ before line after, lines = before ++ line :: after ∧ (∀ each ∈ before, GoesOn each) ∧
      ¬GoesOn line := by
  classical
  have found : (lines.find? fun line => !decide (GoesOn line)).isSome = true := by
    rw [List.find?_isSome]
    simpa using stops
  rcases Option.isSome_iff_exists.1 found with ⟨line, first⟩
  rcases List.find?_eq_some_iff_append.1 first with ⟨ends, before, after, split, goOn⟩
  exact ⟨before, line, after, split, by simpa using goOn, by simpa using ends⟩

/-- How the dialogue over an input goes when more input follows. Either every line goes on, and the
outputs are put together, or the first one that does not decides alone. -/
structure ComposesWith (session : Session) (prompting : Bool) (earlier later : List UInt8) :
    Prop where
  /-- Lines that go on are answered line by line. The last prompt waits for what follows. -/
  continued : (∀ line ∈ splitLines earlier, GoesOn line) →
    session.dialogue prompting earlier =
        ⟨session.written prompting (splitLines earlier) ++ promptText prompting,
          session.complaints (splitLines earlier), false⟩ ∧
      session.dialogue prompting (earlier ++ later) =
        ⟨session.written prompting (splitLines earlier) ++
            (session.dialogue prompting later).out,
          session.complaints (splitLines earlier) ++ (session.dialogue prompting later).err,
          (session.dialogue prompting later).invalidLine⟩
  /-- The first line that does not go on is the last one that is read. -/
  ended : (∃ line ∈ splitLines earlier, ¬GoesOn line) →
    session.dialogue prompting (earlier ++ later) = session.dialogue prompting earlier ∧
      ∃ before line after, splitLines earlier = before ++ line :: after ∧
        (∀ each ∈ before, GoesOn each) ∧ ¬GoesOn line ∧
        (session.dialogue prompting earlier).out =
          session.written prompting before ++ promptText prompting ∧
        (session.dialogue prompting earlier).err = session.complaints before ∧
        ((session.dialogue prompting earlier).invalidLine = true ↔ ¬IsUtf8 line)

namespace Session

/-- A dialogue over whole lines composes with the dialogue over whatever follows them. -/
theorem dialogue_composes (session : Session) (prompting : Bool) {earlier : List UInt8}
    (whole : IsWholeLines earlier) (later : List UInt8) :
    ComposesWith session prompting earlier later := by
  constructor
  · intro goOn
    constructor
    · have alone := session.converse_append_of_goes_on prompting goOn []
      rw [List.append_nil] at alone
      rw [dialogue, alone]
      simp [converse, Transcript.after, Transcript.ended]
    · rw [dialogue, split_lines_append whole, session.converse_append_of_goes_on prompting goOn]
      rfl
  · intro stops
    rcases exists_first_of_not_goes_on stops with ⟨before, line, after, split, goOn, ends⟩
    rcases session.converse_cons_of_not_goes_on prompting ends with ⟨invalid, isInvalid, last⟩
    have stops (rest : List (List UInt8)) :
        session.converse prompting (before ++ line :: rest) =
          ⟨session.written prompting before ++ promptText prompting,
            session.complaints before, invalid⟩ := by
      rw [session.converse_append_of_goes_on prompting goOn, last]
      simp [Transcript.after]
    have alone := stops after
    have longer := stops (after ++ splitLines later)
    rw [← split, ← dialogue] at alone
    rw [← List.cons_append, ← List.append_assoc, ← split, ← split_lines_append whole,
      ← dialogue] at longer
    refine ⟨longer.trans alone.symm, before, line, after, split, goOn, ends, ?_⟩
    rw [alone]
    exact ⟨rfl, rfl, isInvalid⟩

/-- A command and a refused query go on, and a line that cannot be read ends the dialogue. -/
theorem dialogue_composes_unreadable_line :
    let session : Session := ⟨⟨["name"], []⟩, .json, false⟩
    let earlier := Utf8.encode "fields\n PROJECT age\n".toList
    let unreadable : List UInt8 := [255, Delimited.lineFeed]
    let later := Utf8.encode "PROJECT name\n".toList
    session.dialogue true (earlier ++ later) =
        ⟨"> name\n> > []\n> ", "Unknown field: age\n", false⟩ ∧
      session.dialogue true (earlier ++ unreadable ++ later) =
        ⟨"> name\n> > ", "Unknown field: age\n", true⟩ := by
  intro session earlier unreadable later
  have wholeEarlier : IsWholeLines earlier := by decide +kernel
  have wholeBoth : IsWholeLines (earlier ++ unreadable) := by decide +kernel
  have replies : ∀ line ∈ splitLines earlier,
      session.replyTo line ≠ .leave ∧ session.replyTo line ≠ .unreadable := by decide +kernel
  have goOn : ∀ line ∈ splitLines earlier, GoesOn line :=
    fun line member => session.goes_on_iff.2 (replies line member)
  have composed := (session.dialogue_composes true wholeEarlier later).continued goOn
  have last : unreadable ∈ splitLines (earlier ++ unreadable) := by decide +kernel
  have isUnreadable : session.replyTo unreadable = .unreadable := by decide +kernel
  have ends : ¬GoesOn unreadable := fun goesOn => (session.goes_on_iff.1 goesOn).2 isUnreadable
  have cut := (session.dialogue_composes true wholeBoth later).ended ⟨unreadable, last, ends⟩
  constructor
  · rw [composed.2]
    decide +kernel
  · rw [cut.1]
    decide +kernel

end Session

end TableQuery
