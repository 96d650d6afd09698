import DomProtocol.DomWallet.Journal

/-! # The journal file

An append writes one line: the JSON of an entry, with the change encrypted and the MAC of the rest
in an authenticated journal, and a line feed. **`readEntries`** is what replay takes from the file.
A crash may leave a piece of a line behind; the next append continues that line, and its entry is
lost (`replay_exact_iff`). JSON, HMAC-SHA256 and ChaCha20-Poly1305 are the parameters of the class
**`JournalBackend`**. -/

namespace DomProtocol.DomWallet

/-! ## Hexadecimal text -/

/-- Lowercase hexadecimal text of octets. -/
def hexEncode (octets : Bytes) : String :=
  String.ofList (octets.flatMap fun octet => [hexDigit (octet.toNat / 16), hexDigit (octet.toNat % 16)])

/-- The value of a hexadecimal digit of either case. -/
def hexValue (digit : Char) : Option Nat :=
  if '0' ≤ digit ∧ digit ≤ '9' then some (digit.toNat - 48)
  else if 'a' ≤ digit ∧ digit ≤ 'f' then some (digit.toNat - 87)
  else if 'A' ≤ digit ∧ digit ≤ 'F' then some (digit.toNat - 55) else none

/-- The octets of pairs of digits. -/
def hexOctets : List Char → Option Bytes
  | [] => some []
  | [_] => none
  | high :: low :: digits => do
    let octet := UInt8.ofNat (16 * (← hexValue high) + (← hexValue low))
    return octet :: (← hexOctets digits)

/-- Read hexadecimal text. -/
def hexDecode (text : String) : Option Bytes := hexOctets text.toList

theorem hexValue_hexDigit : ∀ value < 16, hexValue (hexDigit value) = some value := by decide

/-- Hexadecimal text is read back. -/
@[simp] theorem hexDecode_hexEncode (octets : Bytes) : hexDecode (hexEncode octets) = some octets := by
  rw [hexDecode, hexEncode, String.toList_ofList]
  induction octets with
  | nil => rfl
  | cons octet octets ih =>
    have high := hexValue_hexDigit (octet.toNat / 16) (by have := octet.toNat_lt; omega)
    have low := hexValue_hexDigit (octet.toNat % 16) (Nat.mod_lt _ (by decide))
    have whole : UInt8.ofNat (16 * (octet.toNat / 16) + octet.toNat % 16) = octet := by
      rw [Nat.div_add_mod, UInt8.ofNat_toNat]
    simp only [List.flatMap_cons, List.cons_append, List.nil_append, hexOctets, high, low, ih,
      Option.bind_eq_bind, Option.bind_some, whole]
    rfl

/-! ## Lines -/

/-- What a line holds besides the entry; replay does not use it. -/
structure LineInfo where
  timestamp : UInt64
  outputCount : UInt32
  feeNoms : UInt64
  deriving DecidableEq

/-- The content of a line: the change is the hexadecimal text of its envelope. -/
structure JournalEntryWire where
  info : LineInfo
  txHash : Hash256
  event : TxJournalEvent String
  mac : Option String
  deriving DecidableEq

/-- The keys of an authenticated journal. -/
structure JournalCrypto where
  macKey : Octets 32
  encKey : Octets 32

/-- A journal, authenticated if it has keys. -/
structure TxJournal where
  crypto : Option JournalCrypto

/-- **Third-party functions of the journal**: JSON of lines and changes, HMAC and an AEAD cipher. -/
class JournalBackend where
  entryText : JournalEntryWire → Option String
  parseEntry : String → Option JournalEntryWire
  changeText : PendingChange → Option Bytes
  parseChange : Bytes → Option PendingChange
  hmac : Octets 32 → Bytes → Bytes
  encrypt : Octets 32 → Octets 12 → Bytes → Option Bytes
  decrypt : Octets 32 → Octets 12 → Bytes → Option Bytes

/-- The event with its change translated, as both directions do. -/
def TxJournalEvent.mapChange {α β : Type} (translate : α → Option β) :
    TxJournalEvent α → Option (TxJournalEvent β)
  | built inputs txHex change => (change.mapM translate).map (built inputs txHex)
  | submitted => some submitted
  | confirmed blockHeight => some (confirmed blockHeight)
  | failed reason => some (failed reason)
  | replaced byTxHash => some (replaced byTxHash)
  | canceled => some canceled
  | reorged reorgHeight => some (reorged reorgHeight)
  | receiveConfirmed commitment amount blockHeight blockHash sourceSlateHash =>
    some (receiveConfirmed commitment amount blockHeight blockHash sourceSlateHash)

/-- An event is read back if its change is. -/
theorem TxJournalEvent.mapChange_inverse {α β : Type} {translate : α → Option β}
    {restore : β → Option α} (inverse : ∀ {a b}, translate a = some b → restore b = some a)
    {event : TxJournalEvent α} {wire : TxJournalEvent β}
    (mapped : event.mapChange translate = some wire) : wire.mapChange restore = some event := by
  cases event with
  | built inputs txHex change =>
    obtain ⟨coded, translated, rfl⟩ := Option.map_eq_some_iff.mp mapped
    cases change with
    | none =>
      cases translated
      rfl
    | some change =>
      obtain ⟨text, coded, rfl⟩ := Option.map_eq_some_iff.mp translated
      simp [mapChange, inverse coded]
  | _ =>
    cases mapped
    rfl

namespace TxJournal

open JournalBackend

variable [JournalBackend] (journal : TxJournal)

/-- The text of a change: its JSON, or the nonce and the encrypted JSON. -/
def encodeChange (nonce : Octets 12) (change : PendingChange) : Option String :=
  match journal.crypto with
  | none => (changeText change).map hexEncode
  | some crypto => do
    let plaintext ← changeText change
    let ciphertext ← encrypt crypto.encKey nonce plaintext
    return hexEncode (nonce.toList ++ ciphertext)

/-- Decrypt and parse the text of a change. -/
def decodeChange (change : String) : Option PendingChange := do
  let bytes ← hexDecode change
  let plaintext ←
    match journal.crypto with
    | none => some bytes
    | some crypto =>
      if bytes.length < 12 + 16 then none
      else decrypt crypto.encKey (.ofList (bytes.take 12)) (bytes.drop 12)
  parseChange plaintext

/-- The octets under the MAC: the line without it. -/
def canonicalEntryBytes (wire : JournalEntryWire) : Option Bytes :=
  (entryText { wire with mac := none }).map utf8

/-- The MAC of a line. -/
def macHex (crypto : JournalCrypto) (wire : JournalEntryWire) : Option String :=
  (canonicalEntryBytes wire).map fun bytes => hexEncode (hmac crypto.macKey bytes)

/-- Compare the MAC of a line. -/
def verifyMacHex (crypto : JournalCrypto) (wire : JournalEntryWire) (expectedHex : String) :
    Option Bool := do
  let expected ← hexDecode expectedHex
  let bytes ← canonicalEntryBytes wire
  return expected == hmac crypto.macKey bytes

/-- **The line of an entry.** The change is encrypted under a fresh nonce. -/
def toWire (nonce : Octets 12) (info : LineInfo) (entry : JournalEntry) :
    Option JournalEntryWire := do
  let event ← entry.event.mapChange (journal.encodeChange nonce)
  let wire : JournalEntryWire := ⟨info, entry.txHash, event, none⟩
  let mac ← journal.crypto.mapM (macHex · wire)
  return { wire with mac := mac }

/-- **The entry of a line**, if its MAC is right. Replay logs why it skips a line, and goes on. -/
def decodeWire (wire : JournalEntryWire) : Option JournalEntry := do
  if let some crypto := journal.crypto then
    let mac ← wire.mac
    guard (← verifyMacHex crypto wire mac)
  let event ← wire.event.mapChange journal.decodeChange
  return ⟨wire.txHash, event⟩

/-- The text is what an append may write for the entry. -/
def Encodes (text : Bytes) (entry : JournalEntry) : Prop :=
  ∃ nonce info wire raw, journal.toWire nonce info entry = some wire ∧
    entryText wire = some raw ∧ text = utf8 raw

/-- The entry of a line of text. -/
def decode (raw : String) : Option JournalEntry := (parseEntry raw).bind journal.decodeWire

end TxJournal

/-! ## The file -/

/-- A call of `TxJournal::append`: it returned, or a crash cut its line short. -/
inductive AppendCall where
  | done (entry : JournalEntry) (text : Bytes)
  | torn (piece : Bytes)

/-- What the call adds to the file. -/
def AppendCall.bytes : AppendCall → Bytes
  | done _ text => text ++ [10]
  | torn piece => piece

/-- The entry of a call that returned. -/
def AppendCall.durable : AppendCall → Option JournalEntry
  | done entry _ => some entry
  | torn _ => none

/-- The file after a history of calls. -/
def journalFile (history : List AppendCall) : Bytes := history.flatMap AppendCall.bytes

/-- The beginnings of a history, by its first call. -/
theorem forall_prefix_cons {P : List AppendCall → Prop} {call : AppendCall}
    {history : List AppendCall} :
    (∀ past, past <+: call :: history → P past) ↔
      P [] ∧ ∀ past, past <+: history → P (call :: past) := by
  refine ⟨fun all => ⟨all [] List.nil_prefix, fun past start => all _ ?_⟩, fun all past start => ?_⟩
  · exact List.cons_prefix_cons.mpr ⟨rfl, start⟩
  · rcases List.prefix_cons_iff.mp start with rfl | ⟨rest, rfl, shorter⟩
    exacts [all.1, all.2 rest shorter]

open JournalBackend (entryText parseEntry changeText parseChange encrypt decrypt)

section Format

variable [JournalBackend] (journal : TxJournal)

/-- Beginnings of texts, none of them empty. -/
def Pieces (pieces : List Bytes) : Prop :=
  ∀ piece ∈ pieces, piece ≠ [] ∧ ∃ text entry, journal.Encodes text entry ∧ piece <+: text

/-- The call writes the line of an entry, or a proper prefix of one. -/
def AppendCall.Written : AppendCall → Prop
  | done entry text => journal.Encodes text entry
  | torn piece => ∃ text entry, journal.Encodes text entry ∧ piece <+: text

/-- The entries of the lines: a line that is not UTF-8 ends the replay, and one that does not decode
is skipped. -/
def readLines : List Bytes → List JournalEntry
  | [] => []
  | line :: lines =>
    match fromUtf8 line with
    | none => []
    | some raw => (journal.decode raw).toList ++ readLines lines

/-- **The entries that replay applies**, in order. A carriage return, which the line reader would
drop before a line feed, does not occur in JSON text. -/
def readEntries (file : Bytes) : List JournalEntry := readLines journal (file.splitOnP (· == 10))

/-- `TxJournal::replay` of a file. -/
def replayFile (file : Bytes) : Records := replay (readEntries journal file)

/-- Replay applies exactly the entries whose append returned. -/
def ReplaysExactly (history : List AppendCall) : Prop :=
  readEntries journal (journalFile history) = history.filterMap AppendCall.durable

/-- The pieces after the last line feed are not the whole text of an entry. -/
def Unfinished (pieces : List Bytes) : Prop :=
  ∀ text entry, pieces = [text] → ¬ journal.Encodes text entry

/-- **Nothing is appended behind a piece**, and no piece on a line of its own is a whole text. -/
def Heeded (pieces : List Bytes) : List AppendCall → Prop
  | [] => Unfinished journal pieces
  | .done .. :: history => pieces = [] ∧ Heeded [] history
  | .torn piece :: history =>
    Unfinished journal pieces ∧ Heeded (if piece = [] then pieces else pieces ++ [piece]) history

/-- **What the third-party functions obey**: the readers invert the writers, the cipher adds its tag,
and JSON objects on one line do not end early. -/
class LawfulJournalBackend : Prop where
  parses : ∀ {wire raw}, entryText wire = some raw → parseEntry raw = some wire
  parsesChange : ∀ {change bytes}, changeText change = some bytes → parseChange bytes = some change
  decrypts : ∀ {key nonce plaintext ciphertext}, encrypt key nonce plaintext = some ciphertext →
    16 ≤ ciphertext.length ∧ decrypt key nonce ciphertext = some plaintext
  newline : ∀ {wire raw}, entryText wire = some raw → ∀ byte ∈ utf8 raw, (byte == 10) = false
  prefixFree : ∀ {wire wire' raw raw'}, entryText wire = some raw → entryText wire' = some raw' →
    utf8 raw <+: utf8 raw' → wire = wire'
  /-- Of beginnings of objects in a row, only a single whole object parses. -/
  whole : ∀ {pieces raw wire}, (∀ piece ∈ pieces, piece ≠ [] ∧ ∃ wire raw, entryText wire = some raw ∧
    piece <+: utf8 raw) → pieces.flatten = utf8 raw → parseEntry raw = some wire →
    entryText wire = some raw ∧ pieces = [utf8 raw]

variable {journal} {history : List AppendCall} {pieces : List Bytes} {text piece : Bytes}
  {raw : String} {entry : JournalEntry}

/-- One more piece. -/
theorem Pieces.concat (split : Pieces journal pieces) (nonempty : piece ≠ [])
    (encodes : journal.Encodes text entry) (start : piece <+: text) :
    Pieces journal (pieces ++ [piece]) :=
  List.forall_mem_append.mpr ⟨split, List.forall_mem_singleton.mpr
    ⟨nonempty, text, entry, encodes, start⟩⟩

variable [LawfulJournalBackend]

open LawfulJournalBackend

/-- A change is read back from its text. -/
theorem TxJournal.decodeChange_encodeChange {nonce : Octets 12} {change : PendingChange}
    {coded : String} (encoded : journal.encodeChange nonce change = some coded) :
    journal.decodeChange coded = some change := by
  unfold encodeChange at encoded
  unfold decodeChange
  cases keys : journal.crypto with
  | none =>
    rw [keys] at encoded
    obtain ⟨bytes, plain, rfl⟩ := Option.map_eq_some_iff.mp encoded
    simp [parsesChange plain]
  | some crypto =>
    simp only [keys, Option.bind_eq_bind, Option.bind_eq_some_iff, Option.pure_def,
      Option.some.injEq] at encoded
    obtain ⟨bytes, plain, ciphertext, encrypted, rfl⟩ := encoded
    obtain ⟨tag, decrypted⟩ := decrypts encrypted
    have size : ¬ (nonce.toList ++ ciphertext).length < 12 + 16 := by
      rw [List.length_append, Octets.length_toList]
      omega
    have front : (nonce.toList ++ ciphertext).take 12 = nonce.toList := List.take_left' (by simp)
    have back : (nonce.toList ++ ciphertext).drop 12 = ciphertext := List.drop_left' (by simp)
    simp only [hexDecode_hexEncode, Option.bind_eq_bind, Option.bind_some, if_neg size, front, back,
      Octets.ofList_toList, decrypted, parsesChange plain]

/-- An entry is read back from its line. -/
theorem TxJournal.decodeWire_toWire {nonce : Octets 12} {info : LineInfo}
    {wire : JournalEntryWire} (written : journal.toWire nonce info entry = some wire) :
    journal.decodeWire wire = some entry := by
  simp only [toWire, Option.bind_eq_bind, Option.bind_eq_some_iff, Option.pure_def,
    Option.some.injEq] at written
  obtain ⟨event, mapped, mac, signed, rfl⟩ := written
  have event := TxJournalEvent.mapChange_inverse decodeChange_encodeChange mapped
  unfold decodeWire
  cases keys : journal.crypto with
  | none => simp [event]
  | some crypto =>
    rw [keys] at signed
    obtain ⟨hex, code, rfl⟩ := Option.map_eq_some_iff.mp signed
    obtain ⟨bytes, canonical, rfl⟩ := Option.map_eq_some_iff.mp code
    simp only [canonicalEntryBytes] at canonical
    simp [event, verifyMacHex, canonicalEntryBytes, canonical]

/-- The text of an entry is read back. -/
theorem TxJournal.Encodes.decodes (encodes : journal.Encodes text entry) :
    ∃ raw, fromUtf8 text = some raw ∧ journal.decode raw = some entry := by
  obtain ⟨nonce, info, wire, raw, written, printed, rfl⟩ := encodes
  refine ⟨raw, fromUtf8_eq_some.mpr rfl, ?_⟩
  rw [decode, parses printed, Option.bind_some, decodeWire_toWire written]

/-- Pieces that decode are a single whole text. -/
theorem Pieces.whole (split : Pieces journal pieces) (utf : fromUtf8 pieces.flatten = some raw)
    (decoded : journal.decode raw = some entry) :
    ∃ text, pieces = [text] ∧ journal.Encodes text entry := by
  obtain ⟨wire, parsed, read⟩ := Option.bind_eq_some_iff.mp decoded
  have begins : ∀ piece ∈ pieces, piece ≠ [] ∧ ∃ wire raw, entryText wire = some raw ∧
      piece <+: utf8 raw := by
    intro piece mem
    obtain ⟨nonempty, text, other, ⟨-, -, longer, raw', -, printed, rfl⟩, start⟩ := split piece mem
    exact ⟨nonempty, longer, raw', printed, start⟩
  obtain ⟨printed, single⟩ := LawfulJournalBackend.whole begins (fromUtf8_eq_some.mp utf) parsed
  obtain ⟨-, text, other, ⟨nonce, info, longer, raw', written, printed', rfl⟩, start⟩ :=
    split _ (single ▸ List.mem_singleton_self _)
  obtain rfl := prefixFree printed printed' start
  obtain rfl := Option.some.inj (read.symm.trans (TxJournal.decodeWire_toWire written))
  exact ⟨_, single, nonce, info, wire, raw, written, printed, rfl⟩

/-- Nothing is no text. -/
theorem text_ne_nil (encodes : journal.Encodes text entry) : text ≠ [] := by
  rintro rfl
  obtain ⟨raw, utf, decoded⟩ := encodes.decodes
  obtain ⟨other, same, -⟩ := Pieces.whole (show Pieces journal [] from nofun) utf decoded
  cases same

/-- Pieces have no line feed. -/
theorem Pieces.newline (split : Pieces journal pieces) :
    ∀ byte ∈ pieces.flatten, (byte == 10) = false := by
  intro byte mem
  obtain ⟨piece, piece_mem, mem⟩ := List.mem_flatten.mp mem
  obtain ⟨-, text, entry, ⟨-, -, wire, raw, -, printed, rfl⟩, start⟩ := split piece piece_mem
  exact LawfulJournalBackend.newline printed byte (start.subset mem)

/-- A whole line, behind which the file goes on. -/
theorem readEntries_line (encodes : journal.Encodes text entry) (rest : Bytes) :
    readEntries journal (text ++ 10 :: rest) = entry :: readEntries journal rest := by
  obtain ⟨raw, utf, decoded⟩ := encodes.decodes
  obtain ⟨-, -, wire, raw', -, printed, rfl⟩ := encodes
  rw [readEntries, List.splitOnP_append_cons_of_forall_mem (newline printed) _ rfl, readLines]
  simp only [utf, decoded]
  rfl

/-- What is left of a line that was never ended: nothing, or a whole text. -/
theorem readEntries_pieces (split : Pieces journal pieces) :
    readEntries journal pieces.flatten = [] ↔ Unfinished journal pieces := by
  rw [readEntries, List.splitOnP_eq_singleton split.newline, readLines, readLines]
  constructor
  · rintro none text entry rfl encodes
    obtain ⟨raw, utf, decoded⟩ := encodes.decodes
    simp only [List.flatten_singleton, utf, decoded] at none
    cases none
  · intro unfinished
    cases utf : fromUtf8 pieces.flatten with
    | none => rfl
    | some raw =>
      cases decoded : journal.decode raw with
      | none => simp [decoded]
      | some entry =>
        obtain ⟨text, same, encodes⟩ := split.whole utf decoded
        exact absurd encodes (unfinished text entry same)

/-- A text that continues a piece is lost with it. -/
theorem readEntries_continued (split : Pieces journal (pieces ++ [text])) (hanging : pieces ≠ []) :
    readEntries journal (pieces.flatten ++ (text ++ [10])) = [] := by
  have flat : pieces.flatten ++ (text ++ [10]) = (pieces ++ [text]).flatten ++ 10 :: [] := by simp
  rw [readEntries, flat, List.splitOnP_append_cons_of_forall_mem split.newline _ rfl,
    List.splitOnP_nil, readLines]
  cases utf : fromUtf8 (pieces ++ [text]).flatten with
  | none => rfl
  | some raw =>
    have lost : journal.decode raw = none := by
      refine Option.eq_none_iff_forall_ne_some.mpr fun entry decoded => ?_
      obtain ⟨other, same, -⟩ := split.whole utf decoded
      exact hanging (List.append_inj' (same.trans (List.nil_append [other]).symm) rfl).1
    have rest := (readEntries_pieces (show Pieces journal [] from nofun)).mpr nofun
    rw [readEntries, List.flatten_nil, List.splitOnP_nil] at rest
    simp [lost, rest]

/-- Exactness behind pieces that are left at the end of the file. -/
theorem replay_behind (split : Pieces journal pieces) (written : ∀ call ∈ history, call.Written journal) :
    (∀ past, past <+: history → readEntries journal (pieces.flatten ++ journalFile past) =
      past.filterMap AppendCall.durable) ↔ Heeded journal pieces history := by
  induction history generalizing pieces with
  | nil => simpa [Heeded, journalFile] using readEntries_pieces split
  | cons call history ih =>
    obtain ⟨first, later⟩ := List.forall_mem_cons.mp written
    rw [forall_prefix_cons, journalFile, List.flatMap_nil, List.append_nil, List.filterMap_nil,
      readEntries_pieces split]
    cases call with
    | done entry text =>
      by_cases clean : pieces = []
      · subst clean
        have line past : readEntries journal ([].flatten ++ journalFile (.done entry text :: past)) =
            entry :: readEntries journal ([].flatten ++ journalFile past) := by
          simpa [journalFile, AppendCall.bytes] using readEntries_line first (journalFile past)
        simp only [line, Heeded, ← ih split later, List.filterMap_cons, AppendCall.durable,
          List.cons.injEq, true_and, and_iff_right (show Unfinished journal [] from nofun)]
      · -- the line of the entry is not whole
        refine iff_of_false (fun all => ?_) fun heeded => clean heeded.1
        have durable := all.2 [] List.nil_prefix
        rw [journalFile, List.flatMap_singleton, AppendCall.bytes, readEntries_continued
          (split.concat (text_ne_nil first) first (List.prefix_refl _)) clean] at durable
        cases durable
    | torn piece =>
      have next : ∃ next, Pieces journal next ∧ next.flatten = pieces.flatten ++ piece ∧
          next = if piece = [] then pieces else pieces ++ [piece] := by
        obtain ⟨text, entry, encodes, start⟩ := first
        split
        · exact ⟨pieces, split, by simp [*], rfl⟩
        · exact ⟨_, split.concat ‹_› encodes start, by simp, rfl⟩
      obtain ⟨next, split, flat, next_eq⟩ := next
      rw [Heeded, ← next_eq, ← ih split later, flat]
      simp only [journalFile, List.flatMap_cons, AppendCall.bytes, List.append_assoc]
      exact Iff.rfl

/-- **Replay is exact after every call** of a history exactly when nothing was appended behind a
torn line and no torn line is a whole text. -/
theorem replay_exact_iff (journal : TxJournal) (history : List AppendCall)
    (written : ∀ call ∈ history, call.Written journal) :
    (∀ past, past <+: history → ReplaysExactly journal past) ↔ Heeded journal [] history :=
  replay_behind (show Pieces journal [] from nofun) written

end Format

section Example

def lineSample : JournalEntry := ⟨0, .submitted⟩

/-- The line of the entry in a journal without keys. -/
def sampleWire : JournalEntryWire := ⟨⟨0, 0, 0⟩, 0, .submitted, none⟩

/-- A backend that writes one line, in two octets. -/
@[reducible] def oneLine : JournalBackend where
  entryText wire := if wire = sampleWire then some "\x7b\x7d" else none
  parseEntry raw := if raw = "\x7b\x7d" then some sampleWire else none
  changeText _ := none
  parseChange _ := none
  hmac _ _ := []
  encrypt _ _ _ := none
  decrypt _ _ _ := none

attribute [local instance] oneLine

theorem oneLine_lawful : LawfulJournalBackend where
  parses := by
    rintro wire raw printed
    obtain ⟨rfl, ⟨⟩⟩ := Option.ite_none_right_eq_some.mp printed
    rfl
  parsesChange := nofun
  decrypts := nofun
  newline := by
    rintro wire raw printed
    obtain ⟨-, ⟨⟩⟩ := Option.ite_none_right_eq_some.mp printed
    exact List.forall_mem_cons.mpr ⟨rfl, List.forall_mem_singleton.mpr rfl⟩
  prefixFree first second _ := (Option.ite_none_right_eq_some.mp first).1.trans
    (Option.ite_none_right_eq_some.mp second).1.symm
  whole := by
    intro pieces raw wire split flat parsed
    obtain ⟨rfl, ⟨⟩⟩ := Option.ite_none_right_eq_some.mp parsed
    have begins : ∀ piece ∈ pieces, piece = [123] ∨ piece = [123, 125] := by
      intro piece mem
      obtain ⟨nonempty, _, _, printed, start⟩ := split piece mem
      obtain ⟨-, ⟨⟩⟩ := Option.ite_none_right_eq_some.mp printed
      obtain ⟨rest, rfl, tail⟩ := (List.prefix_cons_iff.mp start).resolve_left nonempty
      rcases List.prefix_cons_iff.mp tail with rfl | ⟨rest, rfl, nothing⟩
      · exact Or.inl rfl
      · exact Or.inr (congrArg _ (congrArg _ (List.prefix_nil.mp nothing)))
    match pieces with
    | [] => cases flat
    | [piece] => exact ⟨rfl, by simpa using flat⟩
    | piece :: second :: others =>
      rcases begins piece (by simp) with rfl | rfl <;>
        rcases begins second (by simp) with rfl | rfl <;> cases flat

attribute [local instance] oneLine_lawful

/-- The line, and a piece of it. -/
theorem written_oneLine : (AppendCall.torn [123]).Written ⟨none⟩ ∧
    (AppendCall.done lineSample [123, 125]).Written ⟨none⟩ := by
  have encodes : TxJournal.Encodes ⟨none⟩ [123, 125] lineSample :=
    ⟨0, ⟨0, 0, 0⟩, sampleWire, "\x7b\x7d", rfl, rfl, rfl⟩
  exact ⟨⟨[123, 125], lineSample, encodes, [125], rfl⟩, encodes⟩

/-- An entry with a piece of a line behind it. -/
theorem replay_exact_before_torn : ReplaysExactly ⟨none⟩ [.done lineSample [123, 125]] ∧
    ReplaysExactly ⟨none⟩ [.done lineSample [123, 125], .torn [123]] := by
  have replays : ∀ past, past <+: [.done lineSample [123, 125], .torn [123]] →
      ReplaysExactly ⟨none⟩ past := by
    refine (replay_exact_iff _ _ ?_).mpr ⟨rfl, nofun, ?_⟩
    · simp [written_oneLine]
    · rintro _ entry same ⟨-, -, wire, raw, -, printed, rfl⟩
      obtain ⟨-, ⟨⟩⟩ := Option.ite_none_right_eq_some.mp printed
      cases same
  exact ⟨replays _ ⟨[.torn [123]], rfl⟩, replays _ (List.prefix_refl _)⟩

/-- **A durable entry is lost**: the append behind a piece returns, and replay applies nothing. -/
theorem replay_after_torn :
    (∀ call ∈ [AppendCall.torn [123], .done lineSample [123, 125]], call.Written ⟨none⟩) ∧
      replayFile ⟨none⟩ (journalFile [.torn [123], .done lineSample [123, 125]]) = ∅ ∧
      ¬ ReplaysExactly ⟨none⟩ [.torn [123], .done lineSample [123, 125]] :=
  ⟨by simp [written_oneLine], rfl, nofun⟩

end Example

end DomProtocol.DomWallet
