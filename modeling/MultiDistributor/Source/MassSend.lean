import MultiDistributor.Lib.SortedMap
import MultiDistributor.Lib.Submissions
import MultiDistributor.Source.CsvEntries

/-!
# Mass sending and resending

`process_mass_send` and `process_resend` of `cli/src/bin/instructions/process_send.rs`, as
a machine that takes one iteration of a loop at a time, so that transactions of earlier
iterations and runs may land in between. A run ends when another one is started, which
covers runs that stop between two iterations.

The record file holds the map of the running command after every iteration, so one map
stands for both; it always parses. What the RPC node and the network do is part of the
event: the blockhash, whether a token account is reported missing, whether the
transaction reaches the network, and whether the call returns `Ok`. The order in which a
`HashMap` is iterated over is part of the event too. Printed messages are not represented.
-/
namespace MultiDistributor.Source.Send
open Lib Lib.Submissions

/-- Addresses and the signature each was sent with, as in the record file. -/
abbrev SentAddresses := SortedMap String String

inductive SendInstruction where
  | setComputeUnitLimit (units : UInt32)
  | createAssociatedTokenAccount (user : Pubkey)
  | transfer (user : Pubkey) (amount : UInt64)
  deriving DecidableEq, Repr

/-- The user whose token account an instruction pays. -/
def SendInstruction.payee : SendInstruction → Option Pubkey
  | .setComputeUnitLimit _ => none
  | .createAssociatedTokenAccount _ => none
  | .transfer user _ => some user

def payees (instructions : List SendInstruction) : List Pubkey :=
  instructions.filterMap SendInstruction.payee

abbrev Network := List (Submitted String (List SendInstruction))

/-- Signatures of the keypair, as texts. -/
structure Signing where
  sign : Nat → List SendInstruction → String
  isSignature : String → Bool

/-- What happens around one call of `send_for_batch_address`. -/
structure Submission where
  blockhash : Nat
  /-- `get_account_data` fails for the token account at this position of the batch. -/
  accountMissing : Nat → Bool
  /-- The network receives the transaction. -/
  delivered : Bool
  /-- `send_transaction` returns `Ok`. -/
  accepted : Bool

/-! ### One batch -/

/-- The instructions of one address; an address that is not a key has none. -/
def addressIxs (text : PubkeyText) (amount : UInt64) (address : String) (missing : Bool) :
    List SendInstruction :=
  match text.fromStr address with
  | some user =>
      (if missing then [.createAssociatedTokenAccount user] else []) ++ [.transfer user amount]
  | none => []

def massIxs (text : PubkeyText) (amount : UInt64) (batchAddress : List String)
    (accountMissing : Nat → Bool) : List SendInstruction :=
  .setComputeUnitLimit 1000000 :: batchAddress.zipIdx.flatMap fun item =>
    addressIxs text amount item.1 (accountMissing item.2)

def qualifiedAddress (text : PubkeyText) (batchAddress : List String) : List String :=
  batchAddress.filter fun address => (text.fromStr address).isSome

/-- `send_for_batch_address`: the network afterwards, and what the call returns. -/
def sendForBatchAddress (text : PubkeyText) (signing : Signing) (network : Network)
    (amount : UInt64) (batchAddress : List String) (submission : Submission) :
    Network × Option (String × List String) :=
  let instructions := massIxs text amount batchAddress submission.accountMissing
  let signature := signing.sign submission.blockhash instructions
  (if submission.delivered then submit network signature instructions else network,
    if submission.accepted then some (signature, qualifiedAddress text batchAddress) else none)

/-- The inserts and the rewritten record file after a call. -/
def recordSent (sentAddresses : SentAddresses) : Option (String × List String) → SentAddresses
  | some result =>
      result.2.foldl (fun sent address => sent.insert address result.1) sentAddresses
  | none => sentAddresses

/-! ### The two commands -/

/-- The loop that cuts the addresses not sent yet into batches. -/
def wrapBatchAddresses (sentAddresses : SentAddresses) (perTransaction : Nat) :
    List String → List String → List (List String)
  | [], batchAddresses => if batchAddresses.length > 0 then [batchAddresses] else []
  | address :: rest, batchAddresses =>
      if (sentAddresses.get? address).isSome then
        wrapBatchAddresses sentAddresses perTransaction rest batchAddresses
      else if (batchAddresses ++ [address]).length ≥ perTransaction then
        (batchAddresses ++ [address]) :: wrapBatchAddresses sentAddresses perTransaction rest []
      else wrapBatchAddresses sentAddresses perTransaction rest (batchAddresses ++ [address])

/-- The addresses sent with each signature, read in the order of `entries`. -/
def signatureToAddress (entries : List (String × String)) : SortedMap String (List String) :=
  entries.foldl (fun groups entry =>
    groups.insert entry.2 ((groups.get? entry.2).getD [] ++ [entry.1])) SortedMap.empty

/-- The first addresses of a group that is too large; the others are left for later. -/
def shouldSendAddresses (perTransaction : Nat) (addresses : List String) : List String :=
  if addresses.length > perTransaction then addresses.take perTransaction else addresses

/-- `get_signature_status_with_commitment_and_history` at the finalized commitment. -/
def finalizedStatus (network : Network) (signature : String) : Option (Except Unit Unit) :=
  match fateOf network signature with
  | some .landed => some (.ok ())
  | some .failed => some (.error ())
  | _ => none

/-- A transaction that is not known or has failed is sent again. -/
def shouldResend : Option (Except Unit Unit) → Bool
  | some (.ok _) => false
  | some (.error _) => true
  | none => true

/-! ### The machine -/

inductive Running where
  | idle
  | massSend (amount : UInt64) (wrapBatchAddresses : List (List String))
  | resend (amount : UInt64) (perTransaction : Nat) (groups : List (String × List String))

structure Sender where
  sentAddresses : SentAddresses
  network : Network
  /-- Users whose token account exists. -/
  accounts : List Pubkey
  running : Running

/-- One call of `send_for_batch_address` and what is recorded of it. -/
def sendBatch (text : PubkeyText) (signing : Signing) (sender : Sender) (amount : UInt64)
    (batchAddress : List String) (submission : Submission) : Sender :=
  let sent := sendForBatchAddress text signing sender.network amount batchAddress submission
  { sender with network := sent.1, sentAddresses := recordSent sender.sentAddresses sent.2 }

/-- One iteration of the running loop. `answered` says whether the status query returns. -/
def advance (text : PubkeyText) (signing : Signing) (sender : Sender) (answered : Bool)
    (submission : Submission) : Sender :=
  match sender.running with
  | .idle => sender
  | .massSend _ [] => { sender with running := .idle }
  | .massSend amount (batch :: rest) =>
      sendBatch text signing { sender with running := .massSend amount rest } amount batch
        submission
  | .resend _ _ [] => { sender with running := .idle }
  | .resend amount perTransaction (group :: rest) =>
      -- `Signature::from_str(signature).unwrap()` panics on any other text
      if signing.isSignature group.1 = false then { sender with running := .idle }
      else if answered && shouldResend (finalizedStatus sender.network group.1) then
        sendBatch text signing { sender with running := .resend amount perTransaction rest } amount
          (shouldSendAddresses perTransaction group.2) submission
      else { sender with running := .resend amount perTransaction rest }

/-- Token accounts after the instructions, if all of them succeed. -/
def execute (accounts : List Pubkey) : List SendInstruction → Option (List Pubkey)
  | [] => some accounts
  | .setComputeUnitLimit _ :: rest => execute accounts rest
  | .createAssociatedTokenAccount user :: rest =>
      if user ∈ accounts then none else execute (user :: accounts) rest
  | .transfer user _ :: rest => if user ∈ accounts then execute accounts rest else none

/-- The network executes a pending transaction. -/
def land (sender : Sender) (signature : String) : Sender :=
  match sender.network.find? fun tx => tx.signature = signature ∧ tx.fate = .pending with
  | none => sender
  | some tx =>
      match execute sender.accounts tx.payload with
      | some accounts =>
          { sender with network := settle sender.network signature .landed, accounts }
      | none => { sender with network := settle sender.network signature .failed }

inductive Event where
  | massSend (addresses : List String) (maxAddressPerTx amount : UInt64)
  | resend (entries : List (String × String)) (groups : List (String × List String))
      (maxAddressPerTx amount : UInt64)
  | advance (answered : Bool) (submission : Submission)
  | land (signature : String)
  | fail (signature : String)
  | expire (signature : String)
  | openAccount (user : Pubkey)

def step (text : PubkeyText) (signing : Signing) (sender : Sender) : Event → Sender
  | .massSend addresses maxAddressPerTx amount =>
      let batches := wrapBatchAddresses sender.sentAddresses maxAddressPerTx.toNat addresses []
      { sender with running := .massSend amount batches }
  | .resend entries groups maxAddressPerTx amount =>
      -- any order of the recorded addresses, and any order of the groups
      if entries.Perm sender.sentAddresses.entries ∧
          groups.Perm (signatureToAddress entries).entries then
        { sender with running := .resend amount maxAddressPerTx.toNat groups }
      else sender
  | .advance answered submission => advance text signing sender answered submission
  | .land signature => land sender signature
  | .fail signature => { sender with network := settle sender.network signature .failed }
  | .expire signature => { sender with network := settle sender.network signature .expired }
  | .openAccount user => { sender with accounts := user :: sender.accounts }

/-- A transaction of a recorded signature that was sent before the first run. -/
def earlierTransaction (text : PubkeyText) (amount : UInt64) (sentAddresses : SentAddresses)
    (signature : String) (fate : Fate) : Submitted String (List SendInstruction) :=
  let addresses := (sentAddresses.entries.filter fun entry => entry.2 = signature).map Prod.fst
  { signature, fate, payload := massIxs text amount addresses fun _ => false }

/-- A record file before the first run. `fate` tells what became of each recorded
signature, or that the network has never seen it. -/
def initial (text : PubkeyText) (sentAddresses : SentAddresses) (fate : String → Option Fate)
    (amount : UInt64) (accounts : List Pubkey) : Sender :=
  { sentAddresses
    network := (sentAddresses.entries.map Prod.snd).dedup.filterMap fun signature =>
      (fate signature).map (earlierTransaction text amount sentAddresses signature)
    accounts
    running := .idle }

end MultiDistributor.Source.Send
