import LedgerClient.Choice

/-!
# Payload layouts

Each variant of a payload has a fixed list of fields in signing order. A field's kind says how it
is read from a caller and how it enters the signed bytes. The bytes of a bridge variant stand
bare; those of every other variant are wrapped in one list.
-/

namespace LedgerClient

inductive FieldKind where
  /-- An unsigned integer of 64 bits. -/
  | word
  /-- A token amount of 256 bits. -/
  | amount
  | address
  | text
  | choice (family : Family)
  /-- Pairs of texts. -/
  | metadata
  | optionalText
  deriving DecidableEq, Repr

structure Field where
  name : String
  kind : FieldKind
  /-- A caller may leave the field out. -/
  optional : Bool
  deriving DecidableEq, Repr

inductive Variant where
  | payment
  | tokenMint
  | tokenBurn
  | tokenAuthority
  | tokenPause
  | tokenBlacklist
  | tokenWhitelist
  | tokenMetadataUpdate
  | tokenBridgeAndMint
  | tokenBurnAndBridge
  deriving DecidableEq, Repr

namespace Variant

def all : List Variant :=
  [payment, tokenMint, tokenBurn, tokenAuthority, tokenPause, tokenBlacklist, tokenWhitelist,
    tokenMetadataUpdate, tokenBridgeAndMint, tokenBurnAndBridge]

def name : Variant → String
  | .payment => "PaymentPayload"
  | .tokenMint => "TokenMintPayload"
  | .tokenBurn => "TokenBurnPayload"
  | .tokenAuthority => "TokenAuthorityPayload"
  | .tokenPause => "TokenPausePayload"
  | .tokenBlacklist => "TokenBlacklistPayload"
  | .tokenWhitelist => "TokenWhitelistPayload"
  | .tokenMetadataUpdate => "TokenMetadataUpdatePayload"
  | .tokenBridgeAndMint => "TokenBridgeAndMintPayload"
  | .tokenBurnAndBridge => "TokenBurnAndBridgePayload"

def ofName? (s : String) : Option Variant := all.find? (·.name = s)

/-- The chain state that a regular payload refers to. -/
def anchor : List Field :=
  [⟨"recent_epoch", .word, false⟩, ⟨"recent_checkpoint", .word, false⟩,
    ⟨"chain_id", .word, false⟩, ⟨"nonce", .word, false⟩]

/-- A bridge payload refers to a checkpoint alone. -/
def bridgeAnchor : List Field :=
  [⟨"recent_checkpoint", .word, false⟩, ⟨"chain_id", .word, false⟩, ⟨"nonce", .word, false⟩]

def transfer : List Field :=
  [⟨"recipient", .address, false⟩, ⟨"value", .amount, false⟩, ⟨"token", .address, false⟩]

def listManagement (family : Family) : List Field :=
  [⟨"action", .choice family, false⟩, ⟨"address", .address, false⟩, ⟨"token", .address, false⟩]

def layout : Variant → List Field
  | .payment | .tokenMint | .tokenBurn => anchor ++ transfer
  | .tokenAuthority =>
    anchor ++ [⟨"action", .choice .authorityAction, false⟩,
      ⟨"authority_type", .choice .authority, false⟩, ⟨"authority_address", .address, false⟩,
      ⟨"token", .address, false⟩, ⟨"value", .amount, false⟩]
  | .tokenPause => anchor ++ [⟨"action", .choice .pauseAction, false⟩, ⟨"token", .address, false⟩]
  | .tokenBlacklist => anchor ++ listManagement .blacklistAction
  | .tokenWhitelist => anchor ++ listManagement .whitelistAction
  | .tokenMetadataUpdate =>
    anchor ++ [⟨"name", .text, false⟩, ⟨"uri", .text, false⟩, ⟨"token", .address, false⟩,
      ⟨"additional_metadata", .metadata, true⟩]
  | .tokenBridgeAndMint =>
    bridgeAnchor ++ transfer ++ [⟨"source_chain_id", .word, false⟩, ⟨"source_tx_hash", .text, false⟩,
      ⟨"bridge_metadata", .optionalText, true⟩]
  | .tokenBurnAndBridge =>
    bridgeAnchor ++ [⟨"sender", .address, false⟩, ⟨"value", .amount, false⟩,
      ⟨"token", .address, false⟩, ⟨"destination_chain_id", .word, false⟩,
      ⟨"destination_address", .text, false⟩, ⟨"escrow_fee", .amount, false⟩,
      ⟨"bridge_metadata", .optionalText, false⟩, ⟨"bbnonce", .word, false⟩]

/-- The signed fields of the variant are wrapped in one list. -/
def isWrapped : Variant → Bool
  | .tokenBridgeAndMint | .tokenBurnAndBridge => false
  | _ => true

theorem layout_ne_nil (v : Variant) : v.layout ≠ [] := by cases v <;> decide

theorem layout_names_nodup (v : Variant) : (v.layout.map Field.name).Nodup := by
  cases v <;> decide

end Variant

end LedgerClient
