import Mathlib

/-!
# Transactions handed to a network

A network knows its transactions by their signatures. A pending one may land, fail or
expire at any time; the others stay as they are. The receivers of a transaction are read
off its payload by `pays`.

A book says under which signature a receiver was entered. As long as every transaction
that has landed or may still land is the one its receivers are entered under, nobody is
paid twice.
-/
namespace MultiDistributor.Lib.Submissions

inductive Fate where
  | pending
  | landed
  | failed
  | expired
  deriving DecidableEq, Repr

structure Submitted (S P : Type) where
  signature : S
  payload : P
  fate : Fate
  deriving DecidableEq, Repr

variable {S P U : Type}

/-- The transaction has landed or may still land. -/
def Submitted.Live (tx : Submitted S P) : Prop := tx.fate = .pending ∨ tx.fate = .landed

def Submitted.received (pays : P → List U) (tx : Submitted S P) : List U :=
  if tx.fate = .landed then pays tx.payload else []

/-- The receivers of all landed transactions, each as often as it was paid. -/
def payments (pays : P → List U) (network : List (Submitted S P)) : List U :=
  network.flatMap (Submitted.received pays)

/-! ### Booked transactions -/

/-- Every live transaction is the one its receivers are entered under. -/
structure Booked (pays : P → List U) (book : U → Option S) (network : List (Submitted S P)) :
    Prop where
  signatures : (network.map Submitted.signature).Nodup
  once : ∀ tx ∈ network, tx.Live → (pays tx.payload).Nodup
  entered : ∀ tx ∈ network, tx.Live → ∀ receiver ∈ pays tx.payload,
    book receiver = some tx.signature

section Booked
variable {pays : P → List U} {book : U → Option S} {network : List (Submitted S P)}

theorem Booked.payments_nodup (held : Booked pays book network) :
    (payments pays network).Nodup := by
  have landed : ∀ {tx : Submitted S P} {receiver : U}, receiver ∈ tx.received pays →
      tx.Live ∧ receiver ∈ pays tx.payload := by
    intro tx receiver paid
    unfold Submitted.received at paid
    split at paid
    · next here => exact ⟨Or.inr here, paid⟩
    · cases paid
  refine List.nodup_flatMap.mpr ⟨fun tx member => ?_, ?_⟩
  · unfold Submitted.received
    split
    · next here => exact held.once tx member (Or.inr here)
    · exact List.nodup_nil
  · -- two transactions that pay one receiver are entered under one signature
    have apart := List.pairwise_map.mp held.signatures
    refine apart.imp_of_mem fun {first second} listed also different => ?_
    intro receiver paid paidAgain
    have entered := held.entered first listed (landed paid).1 receiver (landed paid).2
    have again := held.entered second also (landed paidAgain).1 receiver (landed paidAgain).2
    exact different (Option.some.inj (entered.symm.trans again))

/-- The book may change away from the receivers of live transactions. -/
theorem Booked.rebook {later : U → Option S} (held : Booked pays book network)
    (kept : ∀ tx ∈ network, tx.Live → ∀ receiver ∈ pays tx.payload,
      later receiver = book receiver) : Booked pays later network where
  signatures := held.signatures
  once := held.once
  entered tx member live receiver paid :=
    (kept tx member live receiver paid).trans (held.entered tx member live receiver paid)

end Booked

/-! ### The network -/

variable [DecidableEq S]

def fateOf (network : List (Submitted S P)) (signature : S) : Option Fate :=
  (network.find? fun tx => tx.signature = signature).map Submitted.fate

/-- A transaction with a known signature is the known transaction. -/
def submit (network : List (Submitted S P)) (signature : S) (payload : P) :
    List (Submitted S P) :=
  if (fateOf network signature).isSome then network
  else network ++ [{ signature, payload, fate := .pending }]

def Submitted.settle (signature : S) (fate : Fate) (tx : Submitted S P) : Submitted S P :=
  if tx.signature = signature ∧ tx.fate = .pending then { tx with fate } else tx

/-- The pending transaction of a signature meets its fate. -/
def settle (network : List (Submitted S P)) (signature : S) (fate : Fate) :
    List (Submitted S P) :=
  network.map (Submitted.settle signature fate)

/-! ### Signatures and fates -/

@[simp] theorem Submitted.settle_signature (signature : S) (fate : Fate) (tx : Submitted S P) :
    (tx.settle signature fate).signature = tx.signature := by
  unfold Submitted.settle
  split <;> rfl

@[simp] theorem Submitted.settle_payload (signature : S) (fate : Fate) (tx : Submitted S P) :
    (tx.settle signature fate).payload = tx.payload := by
  unfold Submitted.settle
  split <;> rfl

theorem Submitted.live_of_settle {signature : S} {fate : Fate} {tx : Submitted S P}
    (live : (tx.settle signature fate).Live) : tx.Live := by
  unfold Submitted.settle at live
  split at live
  · next met => exact Or.inl met.2
  · exact live

theorem settle_signatures (network : List (Submitted S P)) (signature : S) (fate : Fate) :
    (settle network signature fate).map Submitted.signature =
      network.map Submitted.signature := by
  simp [settle]

theorem fateOf_isSome_iff (network : List (Submitted S P)) (signature : S) :
    (fateOf network signature).isSome ↔ signature ∈ network.map Submitted.signature := by
  simp [fateOf]

theorem mem_of_fateOf {network : List (Submitted S P)} {signature : S} {fate : Fate}
    (known : fateOf network signature = some fate) :
    ∃ tx ∈ network, tx.signature = signature ∧ tx.fate = fate := by
  obtain ⟨tx, found, same⟩ := Option.map_eq_some_iff.mp known
  exact ⟨tx, List.mem_of_find?_eq_some found, by simpa using List.find?_some found, same⟩

/-- With distinct signatures the fate is that of the listed transaction. -/
theorem fateOf_of_mem {network : List (Submitted S P)}
    (distinct : (network.map Submitted.signature).Nodup) {tx : Submitted S P}
    (member : tx ∈ network) : fateOf network tx.signature = some tx.fate := by
  have known := (fateOf_isSome_iff network tx.signature).mpr (List.mem_map_of_mem member)
  obtain ⟨fate, found⟩ := Option.isSome_iff_exists.mp known
  obtain ⟨other, listed, same, rfl⟩ := mem_of_fateOf found
  rw [found, List.inj_on_of_nodup_map distinct listed member same]

theorem submit_signatures {network : List (Submitted S P)}
    (distinct : (network.map Submitted.signature).Nodup) (signature : S) (payload : P) :
    ((submit network signature payload).map Submitted.signature).Nodup := by
  unfold submit
  split
  · exact distinct
  · next unknown =>
    rw [fateOf_isSome_iff] at unknown
    rw [List.map_append, List.nodup_append]
    refine ⟨distinct, List.nodup_singleton _, ?_⟩
    intro known listed added single same
    rw [List.map_singleton, List.mem_singleton] at single
    rw [same, single] at listed
    exact unknown listed

theorem mem_submit {network : List (Submitted S P)} {signature : S} {payload : P}
    {tx : Submitted S P} (member : tx ∈ submit network signature payload) :
    tx ∈ network ∨ tx = { signature, payload, fate := .pending } := by
  unfold submit at member
  split at member
  · exact Or.inl member
  · exact (List.mem_append.mp member).imp_right List.mem_singleton.mp

theorem mem_submit_of_mem {network : List (Submitted S P)} {tx : Submitted S P}
    (member : tx ∈ network) (signature : S) (payload : P) :
    tx ∈ submit network signature payload := by
  unfold submit
  split
  · exact member
  · exact List.mem_append_left _ member

/-- What has landed stays landed. -/
theorem mem_settle_of_landed {network : List (Submitted S P)} {tx : Submitted S P}
    (member : tx ∈ network) (landed : tx.fate = .landed) (signature : S) (fate : Fate) :
    tx ∈ settle network signature fate := by
  refine List.mem_map.mpr ⟨tx, member, if_neg fun met => ?_⟩
  rw [landed] at met
  cases met.2

/-- A submission pays nobody yet. -/
theorem payments_submit (pays : P → List U) (network : List (Submitted S P)) (signature : S)
    (payload : P) : payments pays (submit network signature payload) = payments pays network := by
  unfold submit
  split
  · rfl
  · simp [payments, Submitted.received]

/-! ### A book through submissions and fates -/

section Booked
variable {pays : P → List U} {book : U → Option S} {network : List (Submitted S P)}

theorem Booked.submit {signature : S} {payload : P} (held : Booked pays book network)
    (distinct : (pays payload).Nodup)
    (entered : ∀ receiver ∈ pays payload, book receiver = some signature) :
    Booked pays book (submit network signature payload) where
  signatures := submit_signatures held.signatures signature payload
  once tx member live := by
    rcases mem_submit member with earlier | rfl
    · exact held.once tx earlier live
    · exact distinct
  entered tx member live := by
    rcases mem_submit member with earlier | rfl
    · exact held.entered tx earlier live
    · exact entered

theorem Booked.settle (held : Booked pays book network) (signature : S) (fate : Fate) :
    Booked pays book (settle network signature fate) where
  signatures := by
    rw [settle_signatures]
    exact held.signatures
  once tx member live := by
    obtain ⟨before, listed, rfl⟩ := List.mem_map.mp member
    rw [Submitted.settle_payload]
    exact held.once before listed (Submitted.live_of_settle live)
  entered tx member live := by
    obtain ⟨before, listed, rfl⟩ := List.mem_map.mp member
    rw [Submitted.settle_payload, Submitted.settle_signature]
    exact held.entered before listed (Submitted.live_of_settle live)

variable [DecidableEq U]

/-- Whoever is entered under a landed transaction is paid by no other. -/
theorem Booked.count_settle (held : Booked pays book network) {receiver : U}
    {settled : Submitted S P} (member : settled ∈ network) (landed : settled.fate = .landed)
    (entered : book receiver = some settled.signature) (signature : S) (fate : Fate) :
    (payments pays (Submissions.settle network signature fate)).count receiver =
      (payments pays network).count receiver := by
  rw [payments, payments, Submissions.settle, List.flatMap_map, List.count_flatMap,
    List.count_flatMap]
  congr 1
  apply List.map_congr_left
  intro tx listed
  simp only [Function.comp_apply, Submitted.settle]
  split
  · next met =>
    -- a pending transaction cannot be the one the receiver is entered under
    have absent : receiver ∉ pays tx.payload := by
      intro paid
      have here := held.entered tx listed (Or.inl met.2) receiver paid
      have same := List.inj_on_of_nodup_map held.signatures listed member
        (Option.some.inj (here.symm.trans entered))
      rw [same, landed] at met
      cases met.2
    have unpaid : (tx.received pays).count receiver = 0 := by
      rw [Submitted.received, if_neg (by rw [met.2]; decide), List.count_nil]
    rw [unpaid, Submitted.received]
    split
    · exact List.count_eq_zero.mpr absent
    · rfl
  · rfl

end Booked

end MultiDistributor.Lib.Submissions
