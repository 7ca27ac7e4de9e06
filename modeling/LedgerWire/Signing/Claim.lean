import LedgerWire.Digest.HashPrefix
import LedgerWire.Json.Record

namespace LedgerWire

/-- A claim on a payment channel: the channel's digits and a number of drops. -/
structure Claim where
  channel : String
  amount : String
  deriving DecidableEq, Repr

namespace Claim

/-! ## Documents -/

/-- A number of drops as a text, or as a number of any kind. -/
def amountText : Json → Except RecordFault String
  | .number value => .ok value.toText
  | .string text => .ok text
  | _ => .error .noVariant

def ofEntries (entries : List (String × Json)) : Except RecordFault Claim := do
  let amount ← Record.part? entries "amount" amountText
  let channel ← Record.part? entries "channel" Record.text
  let channel ← Record.required "channel" channel
  let amount ← Record.required "amount" amount
  return { channel, amount }

def ofItems (items : List Json) : Except RecordFault Claim := do
  let expected := "struct ClaimRequest with 2 elements"
  let channel ← Record.partAt items 0 expected Record.text
  let amount ← Record.partAt items 1 expected amountText
  Record.noMore items 2
  return { channel, amount }

def ofJson : Json → Except RecordFault Claim
  | .object entries => ofEntries entries
  | .array items => ofItems items
  | found => .error (.wrongType found "struct ClaimRequest")

/-! ## What is signed -/

/-- The octets that the channel's owner signs. -/
def bytes (claim : Claim) : Except Error Bytes := do
  let channel ← Hash.ofHex 32 claim.channel
  match Text.whole? claim.amount.toList with
  | none => throw (.invalidAmount (.notClaimDrops claim.amount))
  | some amount =>
      if amount < 2 ^ 64 then
        return HashPrefix.paymentChannelClaim.bytes ++ channel.bytes ++ Bytes.ofNat 8 amount
      else
        throw (.outOfRange "UInt64" claim.amount)

end Claim

end LedgerWire
