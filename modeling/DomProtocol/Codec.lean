import DomProtocol.Types
import DomProtocol.Transparent

/-! # The block codec is canonical

Headers, transactions, coinbase transactions and blocks are each read back from what they are
written as, and each accepted string is the one string that is written for what it denotes. -/

namespace DomProtocol

section

variable [Primitives]

theorem maxSize_transaction : WireFormat.maxSize Transaction = 232659 := by
  show (4 + 255 * 33) + ((4 + 255 * (33 + (4 + (739 + 96)))) + ((4 + 16 * 115) + 32)) = 232659
  norm_num

/-- The longest block a decoder accepts is addressable. -/
theorem maxSize_block_lt : WireFormat.maxSize Block < 2 ^ 64 := by
  show 256 + ((33 + (4 + (739 + 96))) + ((1 + 8 + 33 + 65) + 32) +
    (4 + 5000 * WireFormat.maxSize Transaction)) < 2 ^ 64
  rw [maxSize_transaction]
  norm_num

/-- **Canonical codecs.** The four formats of the consensus objects are canonical. The types already
carry that points are on the curve and amounts at most the supply; what is left to ask of a value is
that its lists and vectors are within the decoder's limits and that a coinbase kernel is marked as
one. -/
theorem block_codec_canonical :
    CanonicalCodec Block Block.WithinLimits ∧
    CanonicalCodec BlockHeader (fun _ => True) ∧
    CanonicalCodec Transaction Transaction.WithinLimits ∧
    CanonicalCodec CoinbaseTransaction CoinbaseTransaction.WithinLimits := by
  -- a block contains the other three, so their encodings are no longer than its longest one
  have hheader : WireFormat.maxSize BlockHeader ≤ WireFormat.maxSize Block :=
    Nat.le_add_right _ _
  have hcoinbase : WireFormat.maxSize CoinbaseTransaction ≤ WireFormat.maxSize Block :=
    (Nat.le_add_right _ _).trans (Nat.le_add_left _ _)
  have htx : WireFormat.maxSize Transaction ≤ WireFormat.maxSize Block :=
    (Nat.le_mul_of_pos_left _ (by decide)).trans
      ((Nat.le_add_left _ _).trans ((Nat.le_add_left _ _).trans (Nat.le_add_left _ _)))
  exact ⟨WireFormat.canonicalCodec maxSize_block_lt,
    WireFormat.canonicalCodec (hheader.trans_lt maxSize_block_lt),
    WireFormat.canonicalCodec (htx.trans_lt maxSize_block_lt),
    WireFormat.canonicalCodec (hcoinbase.trans_lt maxSize_block_lt)⟩

end

end DomProtocol
