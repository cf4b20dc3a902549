/-!
# Decoders

What a caller may ask a response body to be turned into: a record of the ledger, a smaller part of
one, or a plain value. A decoder is known by a name and shown as the function that it is.
-/

namespace LedgerClient

/-- The records that a response is decoded into. -/
inductive ResponseType where
  | transactionHash
  | transaction
  | transactionReceipt
  | accountNonce
  | accountBBNonce
  | associatedTokenAccount
  | latestState
  | chainId
  | checkpointNumber
  | checkpoint
  | epochInfo
  | feeEstimate
  | mintInfo
  deriving DecidableEq, Repr

namespace ResponseType

def name : ResponseType → String
  | .transactionHash => "TransactionHash"
  | .transaction => "Transaction"
  | .transactionReceipt => "TransactionReceipt"
  | .accountNonce => "AccountNonce"
  | .accountBBNonce => "AccountBBNonce"
  | .associatedTokenAccount => "AssociatedTokenAccount"
  | .latestState => "LatestState"
  | .chainId => "ChainId"
  | .checkpointNumber => "CheckpointNumber"
  | .checkpoint => "Checkpoint"
  | .epochInfo => "EpochInfo"
  | .feeEstimate => "FeeEstimate"
  | .mintInfo => "MintInfo"

def all : List ResponseType :=
  [transactionHash, transaction, transactionReceipt, accountNonce, accountBBNonce,
    associatedTokenAccount, latestState, chainId, checkpointNumber, checkpoint, epochInfo,
    feeEstimate, mintInfo]

def ofName? (s : String) : Option ResponseType := all.find? (·.name = s)

theorem ofName?_name (t : ResponseType) : ofName? t.name = some t := by cases t <;> decide

end ResponseType

/-- What a caller may ask a response body to be turned into. -/
inductive Decoder where
  | response (type : ResponseType)
  | signature
  | metadataPair
  | integer
  | length
  | truth
  deriving DecidableEq, Repr

namespace Decoder

/-- The name of a decoder's type in messages. -/
def typeName : Decoder → String
  | .response _ | .signature | .metadataPair => "method"
  | .integer | .truth => "type"
  | .length => "builtin_function_or_method"

/-- A reader that belongs to a record. -/
def reader (home record : String) : String :=
  "<bound method " ++ record ++ ".from_dict of <class 'onemoney_client.types." ++ home ++ "." ++
    record ++ "'>>"

def text : Decoder → String
  | .response type => reader "result" type.name
  | .signature => reader "common" "Signature"
  | .metadataPair => reader "payloads" "MetadataKVPair"
  | .integer => "<class 'int'>"
  | .truth => "<class 'bool'>"
  | .length => "<built-in function len>"

/-- The decoder of a name. -/
def ofName? (name : String) : Option Decoder :=
  match name with
  | "int" => some .integer
  | "len" => some .length
  | "bool" => some .truth
  | "Signature" => some .signature
  | "MetadataKVPair" => some .metadataPair
  | _ => (ResponseType.ofName? name).map .response

theorem ofName?_record (type : ResponseType) : ofName? type.name = some (.response type) := by
  cases type <;> rfl

end Decoder

end LedgerClient
