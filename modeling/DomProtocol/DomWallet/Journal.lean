import DomProtocol.DomWallet.State

/-! # The transaction journal

The journal is an append-only list of lifecycle events by transaction hash. **`replay`** folds it into
one **`TxRecord`** for each transaction: an event that does not fit the status of its record is
skipped, so replay is total. -/

namespace DomProtocol.DomWallet

/-- A lifecycle event; in the journal file, the change is a text. -/
inductive TxJournalEvent (Change : Type := PendingChange) where
  | built (inputs : List (Octets 33)) (txHex : Option Bytes) (change : Option Change)
  | submitted
  | confirmed (blockHeight : Nat)
  | failed (reason : String)
  | replaced (byTxHash : Hash256)
  | canceled
  | reorged (reorgHeight : Nat)
  | receiveConfirmed (commitment : Octets 33) (amount : UInt64) (blockHeight : Nat)
      (blockHash : Option Hash256) (sourceSlateHash : Hash256)
  deriving DecidableEq

/-- Status of a journalled transaction. -/
inductive TxStatus where
  | building
  | submitted
  | confirmed (blockHeight : Nat)
  | received (commitment : Octets 33) (amount : UInt64) (blockHeight : Nat)
      (blockHash : Option Hash256) (sourceSlateHash : Hash256)
  | failed (reason : String)
  | replaced (byTxHash : Hash256)
  | canceled
  deriving DecidableEq

/-- Whether no ordinary event changes the status any more. -/
def TxStatus.isTerminal : TxStatus → Bool
  | confirmed _ | received .. | replaced _ | canceled => true
  | building | submitted | failed _ => false

/-- One line of the journal. -/
structure JournalEntry where
  txHash : Hash256
  event : TxJournalEvent
  deriving DecidableEq

/-- What replay knows about a transaction. -/
structure TxRecord where
  txHash : Hash256
  status : TxStatus
  inputs : List (Octets 33)
  txBytes : Bytes
  change : Option PendingChange
  deriving DecidableEq

/-- The records by transaction hash. -/
abbrev Records := Table Hash256 TxRecord

/-- Move a record that is not terminal, if the event fits its status. -/
def transition (next : TxStatus → Option TxStatus) (txHash : Hash256) (records : Records) :
    Records :=
  match records[txHash]? with
  | none => records
  | some record =>
    if record.status.isTerminal then records
    else
      match next record.status with
      | none => records
      | some status => records.insert txHash { record with status := status }

/-- Rewind a record confirmed above the height the chain rolled back to. -/
def applyReorged (txHash : Hash256) (reorgHeight : Nat) (records : Records) : Records :=
  match records[txHash]? with
  | none => records
  | some record =>
    match record.status with
    | .confirmed blockHeight =>
      if blockHeight ≤ reorgHeight then records
      else records.insert txHash { record with status := .building }
    | _ => records

/-- Apply one entry. -/
def applyEntry (records : Records) (entry : JournalEntry) : Records :=
  match entry.event with
  | .built inputs txHex change =>
    match records[entry.txHash]? with
    | some _ => records
    | none => records.insert entry.txHash
        ⟨entry.txHash, .building, inputs, txHex.getD [], change⟩
  | .submitted => transition (fun
      | .building => some .submitted
      | _ => none) entry.txHash records
  | .confirmed blockHeight => transition (fun
      | .submitted | .building => some (.confirmed blockHeight)
      | _ => none) entry.txHash records
  | .failed reason => transition (fun
      | .submitted | .building => some (.failed reason)
      | _ => none) entry.txHash records
  | .replaced byTxHash => transition (fun
      | .building | .submitted | .failed _ => some (.replaced byTxHash)
      | _ => none) entry.txHash records
  | .canceled => transition (fun
      | .building | .submitted | .failed _ => some .canceled
      | _ => none) entry.txHash records
  | .reorged reorgHeight => applyReorged entry.txHash reorgHeight records
  | .receiveConfirmed commitment amount blockHeight blockHash sourceSlateHash =>
    match records[entry.txHash]? with
    | some _ => records
    | none => records.insert entry.txHash
        ⟨entry.txHash, .received commitment amount blockHeight blockHash sourceSlateHash, [], [],
          none⟩

/-- **Replay** the journal. -/
def replay (journal : List JournalEntry) : Records := journal.foldl applyEntry ∅

end DomProtocol.DomWallet
