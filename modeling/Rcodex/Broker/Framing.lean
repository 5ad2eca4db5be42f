import Rcodex.Broker.Handoff
import Rcodex.Foundation.Effect
import Rcodex.Foundation.Splitting

/-!
# Messages as lines

`writeLocalAppMessage` writes a message as a line of compact JSON, and `readLocalAppMessages` reads
lines up to the first that is no message.  Both have the same limit.  `framing` says what the
reader makes of any stream and that it reads back what was written.
-/

namespace Rcodex

open Json Result Lines

/-- `write_local_app_message`: what it adds to the output. -/
def writeLocalAppMessage (toVec : Value → List UInt8) (message : Value) :
    Effect (List UInt8) AppMessageError Unit := do
  let bytes := toVec message
  Effect.failWhen (maxLocalAppMessageBytes < bytes.length) .tooLong
  Effect.change fun output => output ++ bytes
  Effect.change fun output => output ++ [10]

/-- Write messages one after the other; a message that is not accepted is left out. -/
def writeLocalAppMessages (toVec : Value → List UInt8) :
    List Value → Effect (List UInt8) AppMessageError Unit
  | [] => return ()
  | message :: messages => do
    let _ ← (writeLocalAppMessage toVec message).attempt
    writeLocalAppMessages toVec messages

/-- What is to be made of the text of a line. -/
def lineMessage (parse : List UInt8 → Option Value) (text : List UInt8) :
    Except AppMessageError Value :=
  if maxLocalAppMessageBytes < text.length then .error .tooLong
  else context .notJson (parse (text.rdropWhile (· == 13)))

/-- A list up to and with its first error. -/
def uptoError {ε α : Type} : List (Except ε α) → List (Except ε α)
  | [] => []
  | .ok a :: rest => .ok a :: uptoError rest
  | .error e :: _ => [.error e]

/-- Values without an error are all kept. -/
theorem uptoError_map_ok {ε α : Type} (values : List α) :
    uptoError (values.map (Except.ok : α → Except ε α)) = values.map .ok := by
  induction values with
  | nil => rfl
  | cons a values ih => rw [List.map_cons, uptoError, ih]

section Reading

variable {parse : List UInt8 → Option Value}

/-- The messages of lines, up to the first error. -/
theorem appMessages_eq (lines : List (List UInt8)) :
    appMessages parse lines = uptoError (lines.map (appMessage parse)) := by
  induction lines with
  | nil => rfl
  | cons line lines ih =>
    rw [appMessages, List.map_cons]
    cases appMessage parse line with
    | ok message => rw [uptoError, ← ih]
    | error e => rfl

/-- The trimmed line is the text without carriage returns at its end. -/
theorem trimLine_eq {text : List UInt8} (h : 10 ∉ text) :
    trimLine (text ++ [10]) = text.rdropWhile (· == 13) ∧
      trimLine text = text.rdropWhile (· == 13) := by
  have hdrop : text.reverse.dropWhile (fun b => b == 10 || b == 13) =
      text.reverse.dropWhile (· == 13) := by
    refine Splitting.dropWhile_congr fun b hb => ?_
    have hne : b ≠ 10 := fun heq => h (heq ▸ List.mem_reverse.mp hb)
    simp [hne]
  constructor
  · simp only [trimLine, List.reverse_append, List.reverse_singleton, List.singleton_append,
      List.rdropWhile, List.dropWhile_cons]
    rw [if_pos (by decide), hdrop]
  · rw [trimLine, hdrop]
    rfl

/-- What the reader makes of a line. -/
theorem appMessage_eq {l line : List UInt8} (h : line ∈ lines 10 l) :
    appMessage parse line = lineMessage parse (content 10 line) := by
  obtain ⟨text, htext, hline⟩ := mem_lines h
  obtain ⟨hmarked, hplain⟩ := trimLine_eq htext
  rcases hline with rfl | rfl
  · rw [content_append_mark, appMessage, lineMessage, hmarked]
    have hlimit : exceedsLimit maxLocalAppMessageBytes (text ++ [10]) ↔
        maxLocalAppMessageBytes < text.length := by
      simp [exceedsLimit]
    simp only [hlimit]
  · rw [content_of_notMem htext, appMessage, lineMessage, hplain]
    have hlast : line.getLast? ≠ some 10 := fun hlast => htext (List.mem_of_getLast? hlast)
    have hlimit : exceedsLimit maxLocalAppMessageBytes line ↔
        maxLocalAppMessageBytes < line.length := by
      simp [exceedsLimit, hlast]
    simp only [hlimit]

/-- The reader makes of a stream what is to be made of its lines, up to the first error, however
the stream arrives. -/
theorem readLocalAppMessages_fresh {reads : List (List UInt8)} (hreads : [] ∉ reads) {fuel : ℕ}
    (hfuel : reads.flatten.length < fuel) :
    readLocalAppMessages parse fuel (.fresh reads) =
      uptoError ((lines 10 reads.flatten).map fun line => lineMessage parse (content 10 line)) := by
  have hbytes : (BufReader.fresh reads).bytes = reads.flatten := List.nil_append _
  rw [readLocalAppMessages_eq (Serves.fresh hreads) (by rwa [hbytes]), appMessages_eq, hbytes]
  congr 1
  exact List.map_congr_left fun line hline => appMessage_eq hline

end Reading

section Writing

variable {toVec : Value → List UInt8}

/-- What is added to the output. -/
theorem writeLocalAppMessage_eq (message : Value) (output : List UInt8) :
    writeLocalAppMessage toVec message output =
      if maxLocalAppMessageBytes < (toVec message).length then (.error .tooLong, output)
      else (.ok (), output ++ toVec message ++ [10]) := by
  rw [writeLocalAppMessage]
  split_ifs with hlong
  · rw [Effect.bind_apply, Effect.andThen, Effect.failWhen, Effect.lift, bailWhen, if_pos hlong]
  · rw [Effect.bind_apply, Effect.andThen, Effect.failWhen, Effect.lift, bailWhen, if_neg hlong]
    rfl

/-- The messages that are accepted. -/
def acceptedMessages (toVec : Value → List UInt8) (messages : List Value) : List Value :=
  messages.filter fun message => (toVec message).length ≤ maxLocalAppMessageBytes

/-- The output is a line for each message that is accepted. -/
theorem writeLocalAppMessages_eq (messages : List Value) (output : List UInt8) :
    (writeLocalAppMessages toVec messages output).2 =
      output ++ ((acceptedMessages toVec messages).map fun message => toVec message ++ [10]).flatten
      := by
  induction messages generalizing output with
  | nil => simp [writeLocalAppMessages, acceptedMessages]; rfl
  | cons message messages ih =>
    change (writeLocalAppMessages toVec messages (writeLocalAppMessage toVec message output).2).2 =
      _
    rw [ih, writeLocalAppMessage_eq]
    split_ifs with hlong
    · simp [acceptedMessages, not_le.mpr hlong]
    · simp [acceptedMessages, not_lt.mp hlong]

/-- The lines of texts without newlines. -/
theorem lines_flatten_map {texts : List (List UInt8)} (h : ∀ text ∈ texts, 10 ∉ text) :
    lines 10 (texts.map (· ++ [10])).flatten = texts.map (· ++ [10]) := by
  induction texts with
  | nil => rfl
  | cons text texts ih =>
    rw [List.map_cons, List.flatten_cons, List.append_assoc, List.singleton_append,
      lines_append_mark (h text (by simp)), ih fun text hmem => h text (by simp [hmem])]

/-- A text without carriage returns is the message of its line. -/
theorem lineMessage_toVec {parse : List UInt8 → Option Value} {message : Value}
    (hparse : parse (toVec message) = some message) (hreturn : 13 ∉ toVec message)
    (hlength : (toVec message).length ≤ maxLocalAppMessageBytes) :
    lineMessage parse (toVec message) = .ok message := by
  have hkept : (toVec message).rdropWhile (· == 13) = toVec message := by
    refine List.rdropWhile_eq_self_iff.mpr fun hne hlast => hreturn ?_
    rw [← beq_iff_eq.mp hlast]
    exact List.getLast_mem hne
  rw [lineMessage, if_neg (not_lt.mpr hlength), hkept, hparse]
  rfl

/-- A message is accepted exactly up to the limit and otherwise writes nothing; what is written is
read back, however it arrives; and of any stream the reader makes what is to be made of its lines,
up to the first error. -/
theorem framing {parse : List UInt8 → Option Value} {messages : List Value}
    (hparse : ∀ message ∈ messages, parse (toVec message) = some message)
    (hplain : ∀ message ∈ messages, 10 ∉ toVec message ∧ 13 ∉ toVec message) :
    (∀ message output,
      ((writeLocalAppMessage toVec message output).1 = .ok () ↔
          (toVec message).length ≤ maxLocalAppMessageBytes) ∧
        ((writeLocalAppMessage toVec message output).1 ≠ .ok () →
          (writeLocalAppMessage toVec message output).2 = output)) ∧
    (∀ reads fuel, [] ∉ reads → reads.flatten.length < fuel →
      reads.flatten = (writeLocalAppMessages toVec messages []).2 →
        readLocalAppMessages parse fuel (.fresh reads) =
          (acceptedMessages toVec messages).map .ok) ∧
    ∀ reads fuel, [] ∉ reads → reads.flatten.length < fuel →
      readLocalAppMessages parse fuel (.fresh reads) =
        uptoError ((lines 10 reads.flatten).map fun line =>
          lineMessage parse (content 10 line)) := by
  refine ⟨fun message output => ?_, fun reads fuel hreads hfuel hwritten => ?_,
    fun reads fuel hreads hfuel => readLocalAppMessages_fresh hreads hfuel⟩
  · rw [writeLocalAppMessage_eq]
    split_ifs with hlong
    · simpa using hlong
    · simpa using hlong
  · have haccepted : ∀ message ∈ acceptedMessages toVec messages,
        message ∈ messages ∧ (toVec message).length ≤ maxLocalAppMessageBytes := by
      intro message hmem
      simpa [acceptedMessages] using hmem
    have hlines : lines 10 reads.flatten =
        ((acceptedMessages toVec messages).map toVec).map (· ++ [10]) := by
      rw [hwritten, writeLocalAppMessages_eq, List.nil_append, ← lines_flatten_map, List.map_map]
      · rfl
      · intro text htext
        obtain ⟨message, hmem, rfl⟩ := List.mem_map.mp htext
        exact (hplain message (haccepted message hmem).1).1
    rw [readLocalAppMessages_fresh hreads hfuel, hlines, List.map_map, List.map_map,
      ← uptoError_map_ok]
    congr 1
    refine List.map_congr_left fun message hmem => ?_
    obtain ⟨hmessage, hlength⟩ := haccepted message hmem
    simp only [Function.comp_apply, content_append_mark]
    exact lineMessage_toVec (hparse message hmessage) (hplain message hmessage).2 hlength

end Writing

/-- Two messages. -/
def twoMessages : List Value := [.object [], .null]

/-- Two messages are written and read back, though their lines arrive in odd pieces. -/
theorem framing_twoMessages :
    readLocalAppMessages (plainCodec twoMessages).fromSlice 10
        (.fresh [[123], [125, 10, 110], [117, 108, 108, 10]]) = twoMessages.map .ok := by
  have hparse : ∀ message ∈ twoMessages,
      (plainCodec twoMessages).fromSlice ((plainCodec []).toVec message) = some message := by
    decide +kernel
  have hplain : ∀ message ∈ twoMessages,
      10 ∉ (plainCodec []).toVec message ∧ 13 ∉ (plainCodec []).toVec message := by
    decide +kernel
  have hwritten : [[123], [125, 10, 110], [117, 108, 108, 10]].flatten =
      (writeLocalAppMessages (plainCodec []).toVec twoMessages []).2 := by
    decide +kernel
  have haccepted : acceptedMessages (plainCodec []).toVec twoMessages = twoMessages := by
    decide +kernel
  have hread := (framing hparse hplain).2.1 _ 10 (by decide) (by decide) hwritten
  rwa [haccepted] at hread

end Rcodex
