import TableQuery.Session.Journal

/-!
Log lines and complaints apart. Without its log lines the error output is what the transcript of the
dialogue says; and where all complaints come last, the log lines are a text of their own in front.
-/

namespace TableQuery

def unlogged : List Notice → String
  | [] => ""
  | .text text :: rest => text ++ unlogged rest
  | .record _ :: rest => unlogged rest

theorem unlogged_append (first second : List Notice) :
    unlogged (first ++ second) = unlogged first ++ unlogged second := by
  induction first with
  | nil => exact String.empty_append.symm
  | cons notice first induction =>
      cases notice with
      | text text => rw [List.cons_append, unlogged, induction, unlogged, String.append_assoc]
      | record record => exact induction

theorem unlogged_records (records : List LogRecord) : unlogged (records.map .record) = "" := by
  induction records with
  | nil => rfl
  | cons record records induction => exact induction

namespace Session

theorem unlogged_line_notices (session : Session) (line : List UInt8) :
    unlogged (session.lineNotices line) =
      match session.replyTo line with
      | .complaint text => text
      | _ => "" := by
  unfold lineNotices replyTo
  cases Utf8.decode line with
  | error error => rfl
  | ok text =>
      simp only [unlogged_append, unlogged_records, String.empty_append]
      cases session.replyToTrimmed (String.ofList (trim text)) with
      | complaint text => exact String.append_empty
      | silent => rfl
      | leave => rfl
      | output text => rfl
      | unreadable => rfl

/-- Without its log lines the error output of a dialogue is what its transcript says. -/
theorem unlogged_notices (session : Session) (prompting : Bool) (lines : List (List UInt8)) :
    unlogged (session.notices lines) = (session.converse prompting lines).err := by
  induction lines with
  | nil => rfl
  | cons line lines induction =>
      rw [notices, unlogged_append, unlogged_line_notices, converse]
      cases session.replyTo line with
      | silent => simp [Transcript.after, induction]
      | leave => rfl
      | output text => simp [Transcript.after, induction]
      | complaint text => simp [Transcript.after, induction]
      | unreadable => rfl

end Session

namespace Logger

variable {logger : Logger} {threshold : LogLevel}

theorem text_from_texts (count : Nat) (texts : List String) :
    logger.textFrom threshold count (texts.map .text) = unlogged (texts.map .text) := by
  induction texts with
  | nil => rfl
  | cons text texts induction => rw [List.map_cons, textFrom, induction, unlogged]

/-- Log lines in front of everything else do not depend on what follows them, not even by their
number, so they are a text of their own. -/
theorem text_from_append_texts (count : Nat) (records : List LogRecord) (texts : List String) :
    logger.textFrom threshold count (records.map .record ++ texts.map .text) =
      logger.textFrom threshold count (records.map .record) ++ unlogged (texts.map .text) := by
  induction records generalizing count with
  | nil => rw [List.map_nil, List.nil_append, text_from_texts, textFrom, String.empty_append]
  | cons record records induction =>
      rw [List.map_cons, List.cons_append, textFrom, textFrom, induction, induction]
      split
      · rw [String.append_assoc]
      · rfl

theorem text_from_eq_unlogged (silent : ∀ record, logger.writes threshold record = false)
    (count : Nat) (notices : List Notice) :
    logger.textFrom threshold count notices = unlogged notices := by
  induction notices generalizing count with
  | nil => rfl
  | cons notice notices induction =>
      cases notice with
      | text text => rw [textFrom, induction, unlogged]
      | record record => rw [textFrom, silent, if_neg Bool.false_ne_true, induction, unlogged]

theorem writes_warn (bare : logger.filter = none) (record : LogRecord) :
    logger.writes .warn record = false := by
  rw [writes, bare]
  cases record <;> rfl

end Logger

end TableQuery
