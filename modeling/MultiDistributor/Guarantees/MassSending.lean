import MultiDistributor.Guarantees.TreeIndex
import MultiDistributor.Lib.Replay
import MultiDistributor.Source.MassSend

/-!
# Who mass sending pays

The record file is the book of the sender. Every call of `send_for_batch_address` keeps it
in step with the network as long as no address of the batch is recorded under a
transaction that has landed or may still land, the batch names no key twice, and a
call that reports an error has sent nothing. The two commands see to the first only as
far as the finalized status tells a pending transaction from a lost one, which it does
not, and to the other two not at all.
-/
namespace MultiDistributor.Source.Send
open Lib Lib.Submissions Lib.Replay

/-! ### One batch -/

section Batch
variable {text : PubkeyText}

@[simp] theorem payees_nil : payees [] = [] := rfl

@[simp] theorem payees_setComputeUnitLimit (units : UInt32) (rest : List SendInstruction) :
    payees (.setComputeUnitLimit units :: rest) = payees rest := rfl

@[simp] theorem payees_transfer (user : Pubkey) (amount : UInt64) (rest : List SendInstruction) :
    payees (.transfer user amount :: rest) = user :: payees rest := rfl

theorem payees_addressIxs (amount : UInt64) (address : String) (missing : Bool) :
    payees (addressIxs text amount address missing) = (text.fromStr address).toList := by
  unfold addressIxs payees
  cases text.fromStr address with
  | none => rfl
  | some user => cases missing <;> rfl

/-- A batch pays the keys it names, in its order. -/
theorem payees_massIxs (amount : UInt64) (batch : List String) (missing : Nat → Bool) :
    payees (massIxs text amount batch missing) = batch.filterMap text.fromStr := by
  have general : ∀ start, payees ((batch.zipIdx start).flatMap fun item =>
      addressIxs text amount item.1 (missing item.2)) = batch.filterMap text.fromStr := by
    induction batch with
    | nil => exact fun _ => rfl
    | cons address rest ih =>
      intro start
      have later := ih (start + 1)
      have first : payees (addressIxs text amount address (missing start)) = _ :=
        payees_addressIxs amount address (missing start)
      unfold payees at later first ⊢
      rw [List.zipIdx_cons, List.flatMap_cons, List.filterMap_append, first, later,
        List.filterMap_cons]
      cases text.fromStr address <;> rfl
  exact general 0

theorem address_eq {address : String} {user : Pubkey} (named : text.fromStr address = some user) :
    address = text.toStr user :=
  text.fromStr_inj named (text.fromStr_toStr user)

theorem keys_nodup {addresses : List String} (distinct : addresses.Nodup) :
    (addresses.filterMap text.fromStr).Nodup :=
  distinct.filterMap fun _ _ _ first second => text.fromStr_inj first second

theorem mem_payees {batch : List String} {amount : UInt64} {missing : Nat → Bool} {user : Pubkey} :
    user ∈ payees (massIxs text amount batch missing) ↔ text.toStr user ∈ batch := by
  rw [payees_massIxs, List.mem_filterMap]
  constructor
  · intro ⟨address, member, named⟩
    rwa [← address_eq named]
  · intro member
    exact ⟨_, member, text.fromStr_toStr user⟩

theorem get?_recordSent (sent : SentAddresses) (signature : String) (addresses : List String)
    (address : String) :
    (recordSent sent (some (signature, addresses))).get? address =
      if address ∈ addresses then some signature else sent.get? address := by
  simp only [recordSent]
  induction addresses generalizing sent with
  | nil => simp
  | cons head rest ih =>
    rw [List.foldl_cons, ih, SortedMap.get?_insert]
    by_cases later : address ∈ rest <;> by_cases here : address = head <;> simp [later, here]

end Batch

/-- Under which signature a user is recorded. -/
def book (text : PubkeyText) (sent : SentAddresses) (user : Pubkey) : Option String :=
  sent.get? (text.toStr user)

/-- No key of the batch is named twice, and no address of it recorded under a transaction that
has landed or may still land. -/
structure Free (text : PubkeyText) (sender : Sender) (batch : List String) : Prop where
  distinct : (batch.filterMap text.fromStr).Nodup
  unpaid : ∀ address ∈ batch, ∀ tx ∈ sender.network, tx.Live →
    sender.sentAddresses.get? address ≠ some tx.signature

/-- An error means that nothing was sent. -/
def Submission.Reliable (submission : Submission) : Prop :=
  submission.delivered = true → submission.accepted = true

section Send
variable {text : PubkeyText} {signing : Signing} {sender : Sender} {amount : UInt64}
  {batch : List String} {submission : Submission}

theorem sendBatch_network :
    (sendBatch text signing sender amount batch submission).network =
      if submission.delivered then
        submit sender.network
          (signing.sign submission.blockhash (massIxs text amount batch submission.accountMissing))
          (massIxs text amount batch submission.accountMissing)
      else sender.network := rfl

theorem sendBatch_get? (address : String) :
    (sendBatch text signing sender amount batch submission).sentAddresses.get? address =
      if submission.accepted = true ∧ address ∈ qualifiedAddress text batch then
        some (signing.sign submission.blockhash
          (massIxs text amount batch submission.accountMissing))
      else sender.sentAddresses.get? address := by
  cases returned : submission.accepted with
  | true => simp [sendBatch, sendForBatchAddress, returned, get?_recordSent]
  | false => simp [sendBatch, sendForBatchAddress, returned, recordSent]

/-- Only addresses of the batch that are keys are recorded anew. -/
theorem sendBatch_get?_of_other {address : String}
    (other : address ∈ batch → text.fromStr address = none) :
    (sendBatch text signing sender amount batch submission).sentAddresses.get? address =
      sender.sentAddresses.get? address := by
  rw [sendBatch_get?, if_neg]
  rintro ⟨_, qualified⟩
  obtain ⟨named, key⟩ := List.mem_filter.mp qualified
  rw [other named] at key
  cases key

theorem Free.not_mem (free : Free text sender batch) {address : String}
    {tx : Submitted String (List SendInstruction)} (member : tx ∈ sender.network) (live : tx.Live)
    (recorded : sender.sentAddresses.get? address = some tx.signature) : address ∉ batch :=
  fun named => free.unpaid address named tx member live recorded

theorem Free.booked (free : Free text sender batch) (reliable : submission.Reliable)
    (held : Booked payees (book text sender.sentAddresses) sender.network) :
    Booked payees
      (book text (sendBatch text signing sender amount batch submission).sentAddresses)
      (sendBatch text signing sender amount batch submission).network := by
  have rebooked : Booked payees
      (book text (sendBatch text signing sender amount batch submission).sentAddresses)
      sender.network := by
    refine held.rebook fun tx member live user paid => ?_
    have recorded := held.entered tx member live user paid
    exact sendBatch_get?_of_other fun named => absurd named (free.not_mem member live recorded)
  rw [sendBatch_network]
  split
  · next delivered =>
    refine rebooked.submit (by rw [payees_massIxs]; exact free.distinct) fun user paid => ?_
    have named := mem_payees.mp paid
    have qualified : text.toStr user ∈ qualifiedAddress text batch :=
      List.mem_filter.mpr ⟨named, by rw [text.fromStr_toStr]; rfl⟩
    rw [book, sendBatch_get?, if_pos ⟨reliable delivered, qualified⟩]
  · exact rebooked

end Send

/-! ### Batches and groups -/

theorem wrapBatchAddresses_flatten (sent : SentAddresses) (perTransaction : Nat)
    (addresses batch : List String) :
    (wrapBatchAddresses sent perTransaction addresses batch).flatten =
      batch ++ addresses.filter fun address => (sent.get? address).isNone := by
  induction addresses generalizing batch with
  | nil =>
    unfold wrapBatchAddresses
    cases batch <;> simp
  | cons address rest ih =>
    unfold wrapBatchAddresses
    cases known : sent.get? address with
    | some signature => simp [known, ih]
    | none =>
      simp only [Option.isSome_none, Bool.false_eq_true, if_false]
      split <;> simp [known, ih]

/-- A group holds the addresses recorded under its signature, in the order read. -/
theorem signatureToAddress_get? (entries : List (String × String)) (signature : String)
    (addresses : List String)
    (grouped : (signatureToAddress entries).get? signature = some addresses) :
    addresses = (entries.filter fun entry => entry.2 = signature).map Prod.fst := by
  have general : ((signatureToAddress entries).get? signature).getD [] =
      (entries.filter fun entry => entry.2 = signature).map Prod.fst := by
    clear grouped
    induction entries using List.reverseRecOn with
    | nil => rfl
    | append_singleton entries entry ih =>
      unfold signatureToAddress at ih ⊢
      rw [List.foldl_append, List.foldl_cons, List.foldl_nil, SortedMap.get?_insert]
      by_cases same : signature = entry.2
      · subst same
        simp [ih]
      · simp [same, Ne.symm same, ih]
  rw [← general, grouped]
  rfl

/-- What the remaining iterations rely on. -/
def Planned (text : PubkeyText) (sent : SentAddresses) : Running → Prop
  | .idle => True
  | .massSend _ batches =>
      (batches.flatten.filterMap text.fromStr).Nodup ∧
        ∀ address ∈ batches.flatten, sent.get? address = none
  | .resend _ _ groups =>
      (groups.map Prod.fst).Nodup ∧ ∀ group ∈ groups, group.2.Nodup ∧
        ∀ address ∈ group.2, sent.get? address = some group.1

structure Sound (text : PubkeyText) (sender : Sender) : Prop where
  booked : Booked payees (book text sender.sentAddresses) sender.network
  planned : Planned text sender.sentAddresses sender.running

/-- The keys a file names that are not recorded yet. -/
def unsentKeys (text : PubkeyText) (sent : SentAddresses) (addresses : List String) :
    List Pubkey :=
  (addresses.filter fun address => (sent.get? address).isNone).filterMap text.fromStr

section Planning
variable {text : PubkeyText}

theorem planned_massSend {sent : SentAddresses} {addresses : List String}
    (distinct : (unsentKeys text sent addresses).Nodup) (perTransaction : Nat) (amount : UInt64) :
    Planned text sent (.massSend amount (wrapBatchAddresses sent perTransaction addresses [])) := by
  simp only [Planned, wrapBatchAddresses_flatten, List.nil_append]
  refine ⟨distinct, fun address member => ?_⟩
  simpa using (List.mem_filter.mp member).2

theorem planned_resend {sent : SentAddresses} {entries : List (String × String)}
    {groups : List (String × List String)} (read : entries.Perm sent.entries)
    (visited : groups.Perm (signatureToAddress entries).entries) (perTransaction : Nat)
    (amount : UInt64) : Planned text sent (.resend amount perTransaction groups) := by
  have keys : (entries.map Prod.fst).Nodup := (read.map _).nodup_iff.mpr sent.keys_nodup
  refine ⟨(visited.map _).nodup_iff.mpr (SortedMap.keys_nodup _), fun group member => ?_⟩
  have listed := ((signatureToAddress entries).get?_eq_some_iff _ _).mpr (visited.mem_iff.mp member)
  have shape := signatureToAddress_get? entries group.1 group.2 listed
  rw [shape]
  refine ⟨keys.sublist (List.filter_sublist.map _), fun address named => ?_⟩
  obtain ⟨entry, selected, rfl⟩ := List.mem_map.mp named
  obtain ⟨belongs, same⟩ := List.mem_filter.mp selected
  rw [sent.get?_eq_some_iff, ← of_decide_eq_true same]
  exact read.mem_iff.mp belongs

end Planning

/-! ### One step -/

/-- The signature whose status the next iteration asks for. -/
def queried : Running → Option String
  | .resend _ _ (group :: _) => some group.1
  | _ => none

/-- Whether the next iteration calls `send_for_batch_address`. -/
def sends (signing : Signing) (sender : Sender) (answered : Bool) : Bool :=
  match sender.running with
  | .massSend _ (_ :: _) => true
  | .resend _ _ (group :: _) =>
      signing.isSignature group.1 && answered &&
        shouldResend (finalizedStatus sender.network group.1)
  | _ => false

/-- The file names no key twice that is not recorded yet. Where an iteration sends, an error
means that nothing was sent, and what is sent again is not pending. -/
def Careful (text : PubkeyText) (signing : Signing) (sender : Sender) : Event → Prop
  | .massSend addresses _ _ => (unsentKeys text sender.sentAddresses addresses).Nodup
  | .advance answered submission => sends signing sender answered = true →
      submission.Reliable ∧ ∀ signature, queried sender.running = some signature →
        fateOf sender.network signature ≠ some .pending
  | _ => True

/-- All a step does to the record and the network. -/
inductive Effect (text : PubkeyText) (signing : Signing) (before after : Sender) : Prop where
  | quiet (record : after.sentAddresses = before.sentAddresses)
      (network : after.network = before.network)
  | sent (running : Running) (amount : UInt64) (batch : List String) (submission : Submission)
      (free : Free text before batch) (reliable : submission.Reliable)
      (result : after =
        sendBatch text signing { before with running } amount batch submission)
  | settled (signature : String) (fate : Fate)
      (record : after.sentAddresses = before.sentAddresses)
      (network : after.network = settle before.network signature fate)

section Step
variable {text : PubkeyText} {signing : Signing} {sender : Sender}

theorem Planned.free_massSend {amount : UInt64} {batch : List String} {rest : List (List String)}
    (planned : Planned text sender.sentAddresses (.massSend amount (batch :: rest))) :
    Free text sender batch where
  distinct := by
    have whole := planned.1
    rw [List.flatten_cons, List.filterMap_append] at whole
    exact (List.nodup_append.mp whole).1
  unpaid address named tx _ _ recorded := by
    have fresh := planned.2 address (by simp [named])
    rw [fresh] at recorded
    cases recorded

theorem mem_of_shouldSend {perTransaction : Nat} {addresses : List String} {address : String}
    (member : address ∈ shouldSendAddresses perTransaction addresses) : address ∈ addresses := by
  unfold shouldSendAddresses at member
  split at member
  · exact List.mem_of_mem_take member
  · exact member

theorem shouldSend_nodup {addresses : List String} (distinct : addresses.Nodup)
    (perTransaction : Nat) : (shouldSendAddresses perTransaction addresses).Nodup := by
  unfold shouldSendAddresses
  split
  · exact distinct.sublist (List.take_sublist _ _)
  · exact distinct

/-- A status that calls for a resend is that of no landed transaction. -/
theorem not_landed_of_shouldResend {network : Network} {signature : String}
    (again : shouldResend (finalizedStatus network signature) = true) :
    fateOf network signature ≠ some .landed := by
  intro landed
  rw [finalizedStatus, landed] at again
  cases again

theorem Sound.free_resend (sound : Sound text sender) {amount : UInt64} {perTransaction : Nat}
    {group : String × List String} {rest : List (String × List String)}
    (planned : Planned text sender.sentAddresses (.resend amount perTransaction (group :: rest)))
    (settled : fateOf sender.network group.1 ≠ some .pending)
    (again : shouldResend (finalizedStatus sender.network group.1) = true) :
    Free text sender (shouldSendAddresses perTransaction group.2) where
  distinct := keys_nodup (shouldSend_nodup (planned.2 group List.mem_cons_self).1 perTransaction)
  unpaid address named tx member live recorded := by
    have here := (planned.2 group List.mem_cons_self).2 address (mem_of_shouldSend named)
    have same : group.1 = tx.signature := Option.some.inj (here.symm.trans recorded)
    have fate := fateOf_of_mem sound.booked.signatures member
    rw [← same] at fate
    rcases live with pending | landed
    · exact settled (fate.trans (congrArg some pending))
    · exact not_landed_of_shouldResend again (fate.trans (congrArg some landed))

theorem advance_effect (sound : Sound text sender) {answered : Bool} {submission : Submission}
    (careful : Careful text signing sender (.advance answered submission)) :
    Effect text signing sender (advance text signing sender answered submission) := by
  have planned := sound.planned
  unfold advance
  simp only [Careful, sends] at careful
  cases run : sender.running with
  | idle => exact .quiet rfl rfl
  | massSend amount batches =>
    rw [run] at planned careful
    cases batches with
    | nil => exact .quiet rfl rfl
    | cons batch rest =>
      exact .sent (.massSend amount rest) amount batch submission planned.free_massSend
        (careful rfl).1 rfl
  | resend amount perTransaction groups =>
    rw [run] at planned careful
    cases groups with
    | nil => exact .quiet rfl rfl
    | cons group rest =>
      simp only
      split
      · exact .quiet rfl rfl
      · next known =>
        split
        · next again =>
          have status := (Bool.and_eq_true _ _ ▸ again).2
          have sending : (signing.isSignature group.1 && answered &&
              shouldResend (finalizedStatus sender.network group.1)) = true := by
            rw [Bool.and_assoc, again, Bool.and_true]
            simpa using known
          obtain ⟨reliable, settled⟩ := careful sending
          exact .sent (.resend amount perTransaction rest) amount _ submission
            (sound.free_resend planned (settled group.1 rfl) status) reliable rfl
        · exact .quiet rfl rfl

theorem land_effect (signature : String) :
    Effect text signing sender (land sender signature) := by
  unfold land
  split
  · exact .quiet rfl rfl
  · split
    · exact .settled signature .landed rfl rfl
    · exact .settled signature .failed rfl rfl

theorem step_effect (sound : Sound text sender) {event : Event}
    (careful : Careful text signing sender event) :
    Effect text signing sender (step text signing sender event) := by
  cases event with
  | massSend addresses maxAddressPerTx amount => exact .quiet rfl rfl
  | resend entries groups maxAddressPerTx amount =>
    simp only [step]
    split <;> exact .quiet rfl rfl
  | advance answered submission => exact advance_effect sound careful
  | land signature => exact land_effect signature
  | fail signature => exact .settled signature .failed rfl rfl
  | expire signature => exact .settled signature .expired rfl rfl
  | openAccount user => exact .quiet rfl rfl

theorem Effect.booked {after : Sender} (effect : Effect text signing sender after)
    (held : Booked payees (book text sender.sentAddresses) sender.network) :
    Booked payees (book text after.sentAddresses) after.network := by
  cases effect with
  | quiet record network =>
    rw [record, network]
    exact held
  | sent running amount batch submission free reliable result =>
    rw [result]
    exact Free.booked ⟨free.distinct, free.unpaid⟩ reliable held
  | settled signature fate record network =>
    rw [record, network]
    exact held.settle signature fate

end Step

/-! ### Whole runs -/

section Run
variable {text : PubkeyText} {signing : Signing} {sender : Sender}

theorem Planned.rest_massSend {amount other : UInt64} {batch : List String}
    {rest : List (List String)} {submission : Submission}
    (planned : Planned text sender.sentAddresses (.massSend amount (batch :: rest))) :
    Planned text (sendBatch text signing sender other batch submission).sentAddresses
      (.massSend amount rest) := by
  have whole := planned.1
  rw [List.flatten_cons, List.filterMap_append, List.nodup_append] at whole
  obtain ⟨_, distinct, apart⟩ := whole
  refine ⟨distinct, fun address later => ?_⟩
  have outside : address ∈ batch → text.fromStr address = none := by
    intro here
    cases named : text.fromStr address with
    | none => rfl
    | some user =>
      exact absurd rfl (apart user (List.mem_filterMap.mpr ⟨address, here, named⟩) user
        (List.mem_filterMap.mpr ⟨address, later, named⟩))
  rw [sendBatch_get?_of_other outside]
  exact planned.2 address (by rw [List.flatten_cons]; exact List.mem_append_right _ later)

theorem Planned.tail_resend {sent : SentAddresses} {amount : UInt64} {perTransaction : Nat}
    {group : String × List String} {rest : List (String × List String)}
    (planned : Planned text sent (.resend amount perTransaction (group :: rest))) :
    Planned text sent (.resend amount perTransaction rest) :=
  ⟨(List.nodup_cons.mp planned.1).2, fun other later =>
    planned.2 other (List.mem_cons_of_mem _ later)⟩

/-- Sending a group again leaves the addresses of the other groups as they were. -/
theorem Planned.rest_resend {amount other : UInt64} {perTransaction : Nat}
    {group : String × List String} {rest : List (String × List String)} {submission : Submission}
    (planned : Planned text sender.sentAddresses (.resend amount perTransaction (group :: rest))) :
    Planned text (sendBatch text signing sender other
        (shouldSendAddresses perTransaction group.2) submission).sentAddresses
      (.resend amount perTransaction rest) := by
  have tail := planned.tail_resend
  have fresh := (List.nodup_cons.mp planned.1).1
  refine ⟨tail.1, fun later member => ⟨(tail.2 later member).1, fun address named => ?_⟩⟩
  have recorded := (tail.2 later member).2 address named
  have outside : address ∉ shouldSendAddresses perTransaction group.2 := by
    intro here
    have first := (planned.2 group List.mem_cons_self).2 address (mem_of_shouldSend here)
    have same : group.1 = later.1 := Option.some.inj (first.symm.trans recorded)
    exact fresh (same ▸ List.mem_map_of_mem member)
  rw [sendBatch_get?_of_other fun named => absurd named outside]
  exact recorded

theorem advance_planned (planned : Planned text sender.sentAddresses sender.running)
    (answered : Bool) (submission : Submission) :
    Planned text (advance text signing sender answered submission).sentAddresses
      (advance text signing sender answered submission).running := by
  unfold advance
  cases run : sender.running with
  | idle =>
    simp only [run]
    trivial
  | massSend amount batches =>
    rw [run] at planned
    cases batches with
    | nil => trivial
    | cons batch rest =>
      exact @Planned.rest_massSend text signing { sender with running := .massSend amount rest }
        amount amount batch rest submission planned
  | resend amount perTransaction groups =>
    rw [run] at planned
    cases groups with
    | nil => trivial
    | cons group rest =>
      simp only
      split
      · trivial
      · split
        · exact @Planned.rest_resend text signing
            { sender with running := .resend amount perTransaction rest } amount amount
            perTransaction group rest submission planned
        · exact planned.tail_resend

theorem land_planned (planned : Planned text sender.sentAddresses sender.running)
    (signature : String) :
    Planned text (land sender signature).sentAddresses (land sender signature).running := by
  unfold land
  split
  · exact planned
  · split <;> exact planned

theorem step_sound (sound : Sound text sender) {event : Event}
    (careful : Careful text signing sender event) :
    Sound text (step text signing sender event) := by
  refine { booked := (step_effect sound careful).booked sound.booked, planned := ?_ }
  cases event with
  | massSend addresses maxAddressPerTx amount => exact planned_massSend careful _ _
  | resend entries groups maxAddressPerTx amount =>
    simp only [step]
    split
    · next order => exact planned_resend order.1 order.2 _ _
    · exact sound.planned
  | advance answered submission => exact advance_planned sound.planned answered submission
  | land signature => exact land_planned sound.planned signature
  | fail signature => exact sound.planned
  | expire signature => exact sound.planned
  | openAccount user => exact sound.planned

/-- Transactions sent before the first run pay the addresses recorded under them. -/
theorem initial_sound (sent : SentAddresses) (fate : String → Option Fate) (amount : UInt64)
    (accounts : List Pubkey) : Sound text (initial text sent fate amount accounts) := by
  have earlier : ∀ {tx : Submitted String (List SendInstruction)},
      tx ∈ (initial text sent fate amount accounts).network →
      tx.payload = massIxs text amount
        ((sent.entries.filter fun entry => entry.2 = tx.signature).map Prod.fst)
        fun _ => false := by
    intro tx member
    obtain ⟨signature, _, made⟩ := List.mem_filterMap.mp member
    obtain ⟨known, _, rfl⟩ := Option.map_eq_some_iff.mp made
    rfl
  refine { booked := { signatures := ?_, once := ?_, entered := ?_ }, planned := trivial }
  · simp only [initial, List.map_filterMap, Option.map_map]
    refine List.Nodup.filterMap ?_ (List.nodup_dedup _)
    intro first second signature fromFirst fromSecond
    obtain ⟨_, _, rfl⟩ := Option.map_eq_some_iff.mp fromFirst
    obtain ⟨_, _, same⟩ := Option.map_eq_some_iff.mp fromSecond
    exact same.symm
  · intro tx member _
    rw [earlier member, payees_massIxs]
    exact keys_nodup (sent.keys_nodup.sublist (List.filter_sublist.map _))
  · intro tx member _ user paid
    rw [earlier member] at paid
    obtain ⟨entry, selected, named⟩ := List.mem_map.mp (mem_payees.mp paid)
    obtain ⟨listed, same⟩ := List.mem_filter.mp selected
    rw [book, initial, sent.get?_eq_some_iff, ← named, ← of_decide_eq_true same]
    exact listed

/-- An address recorded under a landed transaction, and how often its user was paid. -/
structure PaidUp (address signature : String) (user : Pubkey) (count : Nat) (sender : Sender) :
    Prop where
  recorded : sender.sentAddresses.get? address = some signature
  landed : fateOf sender.network signature = some .landed
  count_eq : (payments payees sender.network).count user = count

theorem step_paidUp (sound : Sound text sender) {event : Event}
    (careful : Careful text signing sender event) {address signature : String} {user : Pubkey}
    {count : Nat} (named : text.fromStr address = some user)
    (held : PaidUp address signature user count sender) :
    PaidUp address signature user count (step text signing sender event) := by
  have effect := @step_effect text signing sender sound event careful
  have booked := effect.booked sound.booked
  obtain ⟨tx, member, rfl, landed⟩ := mem_of_fateOf held.landed
  -- the landed transaction is still known, whatever the step does
  have still : ∀ {after : Network}, (after.map Submitted.signature).Nodup → tx ∈ after →
      fateOf after tx.signature = some .landed := by
    intro after distinct listed
    rw [fateOf_of_mem distinct listed, landed]
  generalize step text signing sender event = after at effect booked
  cases effect with
  | quiet record network =>
    exact ⟨by rw [record, held.recorded], by rw [network, held.landed],
      by rw [network, held.count_eq]⟩
  | sent running amount batch submission free reliable result =>
    subst result
    have outside := free.not_mem member (Or.inr landed) held.recorded
    have network := @sendBatch_network text signing { sender with running } amount batch submission
    have record := @sendBatch_get?_of_other text signing { sender with running } amount batch
      submission address fun named => absurd named outside
    refine ⟨record.trans held.recorded, still booked.signatures ?_, ?_⟩
    · rw [network]
      split
      · exact mem_submit_of_mem member _ _
      · exact member
    · rw [network, ← held.count_eq]
      split
      · rw [payments_submit]
      · rfl
  | settled other fate record network =>
    have entered : book text sender.sentAddresses user = some tx.signature := by
      rw [book, ← address_eq named, held.recorded]
    refine ⟨by rw [record, held.recorded], still booked.signatures ?_, ?_⟩
    · rw [network]
      exact mem_settle_of_landed member landed _ _
    · rw [network, sound.booked.count_settle member landed entered, held.count_eq]

end Run

/-- Nobody is paid twice in any state of the run, and whoever is recorded under a landed
transaction is not paid again. -/
structure PaysOnce (text : PubkeyText) (signing : Signing) (start : Sender)
    (events : List Event) : Prop where
  once : ∀ before after, events = before ++ after → ∀ user,
    (payments payees (replay (step text signing) start before).network).count user ≤ 1
  final : ∀ before after, events = before ++ after → ∀ address signature user,
    text.fromStr address = some user →
    (replay (step text signing) start before).sentAddresses.get? address = some signature →
    fateOf (replay (step text signing) start before).network signature = some .landed →
    (payments payees (replay (step text signing) start events).network).count user =
      (payments payees (replay (step text signing) start before).network).count user

section Main
variable {text : PubkeyText} {signing : Signing}

theorem replay_sound {start : Sender} (sound : Sound text start) {events : List Event}
    (careful : ∀ pass ∈ transitions (step text signing) start events,
      Careful text signing pass.1 pass.2) :
    Sound text (replay (step text signing) start events) :=
  replay_invariant_along _ (Sound text) start events
    (fun pre event taken held => step_sound held (careful (pre, event) taken)) sound

theorem replay_paidUp {start : Sender} (sound : Sound text start) {events : List Event}
    (careful : ∀ pass ∈ transitions (step text signing) start events,
      Careful text signing pass.1 pass.2)
    {address signature : String} {user : Pubkey} {count : Nat}
    (named : text.fromStr address = some user) (held : PaidUp address signature user count start) :
    PaidUp address signature user count (replay (step text signing) start events) := by
  have both := replay_invariant_along (step text signing)
    (fun sender => Sound text sender ∧ PaidUp address signature user count sender) start events
    (fun pre event taken kept =>
      ⟨step_sound kept.1 (careful (pre, event) taken),
        step_paidUp kept.1 (careful (pre, event) taken) named kept.2⟩)
    ⟨sound, held⟩
  exact both.2

/-- In careful runs of the two commands every address is paid at most once. -/
theorem mass_sending_pays_once (text : PubkeyText) (signing : Signing) (sent : SentAddresses)
    (fate : String → Option Fate) (amount : UInt64) (accounts : List Pubkey) (events : List Event)
    (careful : ∀ pass ∈ transitions (step text signing)
      (initial text sent fate amount accounts) events, Careful text signing pass.1 pass.2) :
    PaysOnce text signing (initial text sent fate amount accounts) events := by
  have start : Sound text (initial text sent fate amount accounts) :=
    initial_sound sent fate amount accounts
  have split : ∀ {before after : List Event}, events = before ++ after →
      Sound text (replay (step text signing) (initial text sent fate amount accounts) before) ∧
      ∀ pass ∈ transitions (step text signing)
        (replay (step text signing) (initial text sent fate amount accounts) before) after,
        Careful text signing pass.1 pass.2 := by
    intro before after parts
    subst parts
    rw [transitions_append] at careful
    exact ⟨replay_sound start fun pass taken => careful pass (List.mem_append_left _ taken),
      fun pass taken => careful pass (List.mem_append_right _ taken)⟩
  refine { once := fun before after parts user => ?_, final := ?_ }
  · exact List.nodup_iff_count_le_one.mp (split parts).1.booked.payments_nodup user
  · intro before after parts address signature user named recorded landed
    obtain ⟨reached, later⟩ := split parts
    rw [parts, replay_append]
    exact (replay_paidUp reached later named ⟨recorded, landed, rfl⟩).count_eq

end Main

/-! ### Runs that pay twice, and one that does not -/

namespace SampleSend

/-- The signature differs from blockhash to blockhash. -/
def signing : Signing where
  sign blockhash _ := if blockhash = 0 then "first" else "second"
  isSignature _ := true

/-- The transaction reaches the network, and the call returns `Ok` or an error. -/
def call (blockhash : Nat) (accepted : Bool) : Submission :=
  { blockhash, accountMissing := fun _ => false, delivered := true, accepted }

/-- An empty record file, and a user with a token account. -/
def start (text : PubkeyText) (user : Pubkey) : Sender :=
  initial text SortedMap.empty (fun _ => none) 5 [user]

def sampleRun (text : PubkeyText) (user : Pubkey) (events : List Event) : Sender :=
  replay (step text signing) (start text user) events

def sendOne (address : String) : List Event :=
  [.massSend [address] 1 5, .advance true (call 0 true)]

def resendOne (address : String) : List Event :=
  [.resend [(address, "first")] [("first", [address])] 1 5, .advance true (call 1 true),
    .land "second"]

/-- Sent again while the first transaction is pending. -/
def resentWhilePending (address : String) : List Event := sendOne address ++ resendOne address

/-- Sent again once the first transaction can no longer land. A file that then names the
address twice sends nothing. -/
def resentAfterExpiry (address : String) : List Event :=
  sendOne address ++ (.expire "first" :: resendOne address ++
    [.massSend [address, address] 2 5, .advance true (call 0 false)])

/-- Sent with an error, and sent again by a second run. -/
def rerunAfterError (address : String) : List Event :=
  [.massSend [address] 1 5, .advance true (call 0 false), .massSend [address] 1 5,
    .advance true (call 1 true), .land "first", .land "second"]

/-- Sent by a file that names the address twice. -/
def namedTwice (address : String) : List Event :=
  [.massSend [address, address] 2 5, .advance true (call 0 true), .land "first"]

/-- The one instruction list of these runs. -/
def payOnce (user : Pubkey) : List SendInstruction :=
  [.setComputeUnitLimit 1000000, .transfer user 5]

/-- A record with one address. -/
def recorded (address signature : String) : SentAddresses :=
  ⟨[(address, signature)], List.pairwise_singleton _ _⟩

section Runs
variable {text : PubkeyText} {address : String} {user : Pubkey}

theorem recorded_get? (address signature : String) :
    (recorded address signature).get? address = some signature := by
  simp [recorded, SortedMap.get?]

/-- The first run submits one transaction and records it. -/
theorem sendOne_reaches (named : text.fromStr address = some user) :
    replay (step text signing) (start text user) (sendOne address) =
      { sentAddresses := recorded address "first", network := [⟨"first", payOnce user, .pending⟩],
        accounts := [user], running := .massSend 5 [] } := by
  simp [sendOne, start, initial, step, advance, sendBatch, sendForBatchAddress, massIxs,
    addressIxs, qualifiedAddress, recordSent, named, wrapBatchAddresses, signing, call, submit,
    fateOf, SortedMap.insert, SortedMap.insertSorted, SortedMap.empty, SortedMap.get?, payOnce,
    recorded]

/-- The second run does the same whether the first transaction is pending or expired. -/
theorem resendOne_reaches (named : text.fromStr address = some user) {fate : Fate}
    (unknown : fate = .pending ∨ fate = .expired) (running : Running) :
    replay (step text signing)
        { sentAddresses := recorded address "first", network := [⟨"first", payOnce user, fate⟩],
          accounts := [user], running } (resendOne address) =
      { sentAddresses := recorded address "second",
        network := [⟨"first", payOnce user, fate⟩, ⟨"second", payOnce user, .landed⟩],
        accounts := [user], running := .resend 5 1 [] } := by
  rcases unknown with rfl | rfl <;>
  simp [resendOne, step, advance, sendBatch, sendForBatchAddress, massIxs, addressIxs,
    qualifiedAddress, recordSent, named, signing, call, submit, fateOf, land, execute, settle,
    Submitted.settle, signatureToAddress, shouldSendAddresses, shouldResend, finalizedStatus,
    SortedMap.insert, SortedMap.insertSorted, SortedMap.empty, SortedMap.get?, payOnce, recorded]

theorem resentWhilePending_reaches (named : text.fromStr address = some user) :
    replay (step text signing) (start text user) (resentWhilePending address) =
      { sentAddresses := recorded address "second",
        network := [⟨"first", payOnce user, .pending⟩, ⟨"second", payOnce user, .landed⟩],
        accounts := [user], running := .resend 5 1 [] } := by
  rw [resentWhilePending, replay_append, sendOne_reaches named,
    resendOne_reaches named (Or.inl rfl)]

/-- Once both transactions have landed, the user has been paid twice. -/
theorem resentWhilePending_pays (named : text.fromStr address = some user) :
    (sampleRun text user (resentWhilePending address)).sentAddresses.get? address = some "second" ∧
    fateOf (sampleRun text user (resentWhilePending address)).network "second" = some .landed ∧
    payments payees (sampleRun text user (resentWhilePending address)).network = [user] ∧
    payments payees (sampleRun text user (resentWhilePending address ++ [.land "first"])).network =
      [user, user] := by
  simp only [sampleRun, replay_append, resentWhilePending_reaches named, replay_cons, replay_nil,
    step]
  refine ⟨recorded_get? _ _, ?_, ?_, ?_⟩
  · simp [fateOf]
  · simp [payments, Submitted.received, payOnce]
  · simp [land, execute, settle, Submitted.settle, payments, Submitted.received, payOnce]

theorem rerunAfterError_pays (named : text.fromStr address = some user) :
    payments payees (sampleRun text user (rerunAfterError address)).network = [user, user] := by
  simp [sampleRun, rerunAfterError, start, initial, step, advance, sendBatch, sendForBatchAddress,
    massIxs, addressIxs, recordSent, named, wrapBatchAddresses, signing, call, submit,
    fateOf, land, execute, settle, Submitted.settle, payments, Submitted.received,
    SortedMap.empty, SortedMap.get?]

theorem namedTwice_pays (named : text.fromStr address = some user) :
    payments payees (sampleRun text user (namedTwice address)).network = [user, user] := by
  simp [sampleRun, namedTwice, start, initial, step, advance, sendBatch, sendForBatchAddress,
    massIxs, addressIxs, named, wrapBatchAddresses, signing, call, submit,
    fateOf, land, execute, settle, Submitted.settle, payments, Submitted.received,
    SortedMap.empty, SortedMap.get?]

/-- Nothing is asked about a pending transaction when the first one has expired. -/
theorem resentAfterExpiry_careful (named : text.fromStr address = some user) :
    ∀ pass ∈ transitions (step text signing) (start text user) (resentAfterExpiry address),
      Careful text signing pass.1 pass.2 := by
  have once : (unsentKeys text (start text user).sentAddresses [address]).Nodup :=
    keys_nodup ((List.nodup_singleton address).filter _)
  have expired : settle [⟨"first", payOnce user, .pending⟩] "first" .expired =
      [⟨"first", payOnce user, .expired⟩] := by simp [settle, Submitted.settle]
  rw [resentAfterExpiry, transitions_append, sendOne_reaches named, transitions_append,
    List.forall_mem_append, List.forall_mem_append, replay_cons]
  refine ⟨?_, ?_, ?_⟩
  · simp [sendOne, Careful, once, Submission.Reliable, call, step, queried]
  · simp [resendOne, Careful, Submission.Reliable, call, step, settle, Submitted.settle, queried,
      fateOf, recorded, signatureToAddress, SortedMap.insert, SortedMap.insertSorted,
      SortedMap.empty, SortedMap.get?]
  · simp only [step, expired]
    rw [resendOne_reaches named (.inr rfl)]
    simp [Careful, unsentKeys, recorded_get?, step, wrapBatchAddresses, sends]

end Runs

end SampleSend

open Guarantees.Sharding.SampleCsv SampleSend in
/-- A resend while the first transaction is pending, a rerun after an error that was none, and
a file with a repeated address each pay one user twice; the first of them pays again what is
recorded under a landed transaction. -/
theorem users_paid_twice :
    ((sampleRun latinText alice (resentWhilePending (latinText.toStr alice))).sentAddresses.get?
        (latinText.toStr alice) = some "second" ∧
      fateOf (sampleRun latinText alice (resentWhilePending (latinText.toStr alice))).network
        "second" = some .landed ∧
      payments payees
        (sampleRun latinText alice (resentWhilePending (latinText.toStr alice))).network = [alice] ∧
      payments payees (sampleRun latinText alice
        (resentWhilePending (latinText.toStr alice) ++ [.land "first"])).network =
        [alice, alice]) ∧
    payments payees (sampleRun latinText alice (rerunAfterError (latinText.toStr alice))).network =
      [alice, alice] ∧
    payments payees (sampleRun latinText alice (namedTwice (latinText.toStr alice))).network =
      [alice, alice] :=
  ⟨resentWhilePending_pays (latinText.fromStr_toStr alice),
    rerunAfterError_pays (latinText.fromStr_toStr alice),
    namedTwice_pays (latinText.fromStr_toStr alice)⟩

open Guarantees.Sharding.SampleCsv SampleSend in
/-- A resend after the first transaction has expired, and a rerun. -/
theorem mass_sending_pays_once_after_expiry :
    PaysOnce latinText signing (start latinText alice)
      (resentAfterExpiry (latinText.toStr alice)) :=
  mass_sending_pays_once latinText signing SortedMap.empty (fun _ => none) 5 [alice]
    (resentAfterExpiry (latinText.toStr alice))
    (resentAfterExpiry_careful (latinText.fromStr_toStr alice))

end MultiDistributor.Source.Send
