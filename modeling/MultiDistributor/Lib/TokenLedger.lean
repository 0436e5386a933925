import MultiDistributor.Lib.Checked

/-!
# A fungible token ledger

Token accounts with a mint, an owner and a 64-bit balance, and mints with a
64-bit supply, over an arbitrary type of addresses. The operations follow the
SPL Token program: a transfer is fully validated and then, when both accounts
are the same one, changes nothing; a mint cannot be issued past its width.
Delegates, close authorities, freezing and native accounts are not represented,
and neither are the extensions of Token-2022 such as permanent delegates. Close
authorities and freezing come on top of this ledger in `TokenAuthorities`.

These facts carry the users of this module. No operation on this ledger can debit,
re-own or close an account whose owner did not authorize it (`execOperation_keeps`),
and the balances of any finite set of accounts never exceed the supply of their
mint (`Conserved`), so a credit taken from another account cannot overflow. Two
transfers can be swapped unless one pays from what the other pays to (`transfer_comm`).
-/
namespace MultiDistributor.Lib.TokenLedger
open Checked

variable {K : Type}

structure TokenAccount (K : Type) where
  mint : K
  owner : K
  amount : UInt64
  deriving DecidableEq, Repr

structure Ledger (K : Type) where
  accounts : K → Option (TokenAccount K)
  supplies : K → Option UInt64

inductive TokenError where
  | uninitializedState | alreadyInUse | invalidMint | insufficientFunds
  | mintMismatch | ownerMismatch | missingSignature | overflow | nonEmptyAccount
  deriving DecidableEq, Repr

/-- Balance of an address; an address without a token account holds nothing. -/
def Ledger.balance (ledger : Ledger K) (key : K) : Nat :=
  match ledger.accounts key with
  | some account => account.amount.toNat
  | none => 0

def Ledger.supply (ledger : Ledger K) (mint : K) : Nat :=
  match ledger.supplies mint with
  | some amount => amount.toNat
  | none => 0

theorem balance_of_account {ledger : Ledger K} {key : K} {account : TokenAccount K}
    (found : ledger.accounts key = some account) : ledger.balance key = account.amount.toNat := by
  simp only [Ledger.balance, found]

variable [DecidableEq K]

def Ledger.setAccount (ledger : Ledger K) (key : K) (value : Option (TokenAccount K)) :
    Ledger K :=
  { ledger with accounts := fun k => if k = key then value else ledger.accounts k }

def Ledger.setSupply (ledger : Ledger K) (mint : K) (value : UInt64) : Ledger K :=
  { ledger with supplies := fun k => if k = mint then some value else ledger.supplies k }

/-- `Transfer`. The self-transfer exit comes after every check, as in SPL Token. -/
def Ledger.transfer (ledger : Ledger K) (source destination authority : K) (amount : UInt64) :
    Except TokenError (Ledger K) := do
  let src ← okOr (ledger.accounts source) .uninitializedState
  let dst ← okOr (ledger.accounts destination) .uninitializedState
  require (amount ≤ src.amount) .insufficientFunds
  require (src.mint = dst.mint) .mintMismatch
  require (authority = src.owner) .ownerMismatch
  if source = destination then
    return ledger
  else
    let debited ← okOr (checkedSub src.amount amount) .overflow
    let credited ← okOr (checkedAdd dst.amount amount) .overflow
    return (ledger.setAccount source (some { src with amount := debited })).setAccount
      destination (some { dst with amount := credited })

/-- `Burn`: the balance and the supply fall by the same amount. -/
def Ledger.burn (ledger : Ledger K) (source mint authority : K) (amount : UInt64) :
    Except TokenError (Ledger K) := do
  let src ← okOr (ledger.accounts source) .uninitializedState
  let total ← okOr (ledger.supplies mint) .invalidMint
  require (amount ≤ src.amount) .insufficientFunds
  require (src.mint = mint) .mintMismatch
  require (authority = src.owner) .ownerMismatch
  let debited ← okOr (checkedSub src.amount amount) .overflow
  let reduced ← okOr (checkedSub total amount) .overflow
  return (ledger.setAccount source (some { src with amount := debited })).setSupply mint reduced

/-- Operations that holders of token accounts and of mint authorities can send. -/
inductive Operation (K : Type) where
  | initializeMint (mint : K)
  | initializeAccount (account mint owner : K)
  | mintTo (mint account : K) (amount : UInt64)
  | transfer (source destination authority : K) (amount : UInt64)
  | burn (source mint authority : K) (amount : UInt64)
  | setOwner (account authority newOwner : K)
  | closeAccount (account authority : K)
  deriving Repr

/-- One operation under the given signatures. Who holds a mint authority is not
modelled: any party may issue. -/
def execOperation (signers : List K) (ledger : Ledger K) :
    Operation K → Except TokenError (Ledger K)
  | .initializeMint mint => do
      require (ledger.supplies mint = none) .alreadyInUse
      return ledger.setSupply mint 0
  | .initializeAccount account mint owner => do
      require (ledger.accounts account = none) .alreadyInUse
      let _ ← okOr (ledger.supplies mint) .invalidMint
      return ledger.setAccount account (some { mint, owner, amount := 0 })
  | .mintTo mint account amount => do
      let dst ← okOr (ledger.accounts account) .uninitializedState
      let total ← okOr (ledger.supplies mint) .invalidMint
      require (dst.mint = mint) .mintMismatch
      let credited ← okOr (checkedAdd dst.amount amount) .overflow
      let issued ← okOr (checkedAdd total amount) .overflow
      return (ledger.setAccount account (some { dst with amount := credited })).setSupply mint
        issued
  | .transfer source destination authority amount => do
      require (authority ∈ signers) .missingSignature
      ledger.transfer source destination authority amount
  | .burn source mint authority amount => do
      require (authority ∈ signers) .missingSignature
      ledger.burn source mint authority amount
  | .setOwner account authority newOwner => do
      require (authority ∈ signers) .missingSignature
      let held ← okOr (ledger.accounts account) .uninitializedState
      require (authority = held.owner) .ownerMismatch
      return ledger.setAccount account (some { held with owner := newOwner })
  | .closeAccount account authority => do
      require (authority ∈ signers) .missingSignature
      let held ← okOr (ledger.accounts account) .uninitializedState
      require (authority = held.owner) .ownerMismatch
      require (held.amount = 0) .nonEmptyAccount
      return ledger.setAccount account none

@[simp] theorem setAccount_self (ledger : Ledger K) (key : K) (value : Option (TokenAccount K)) :
    (ledger.setAccount key value).accounts key = value := by
  simp [Ledger.setAccount]

theorem setAccount_other (ledger : Ledger K) {key other : K} (value : Option (TokenAccount K))
    (distinct : other ≠ key) :
    (ledger.setAccount key value).accounts other = ledger.accounts other := by
  simp [Ledger.setAccount, distinct]

@[simp] theorem setAccount_supply (ledger : Ledger K) (key mint : K)
    (value : Option (TokenAccount K)) :
    (ledger.setAccount key value).supply mint = ledger.supply mint := rfl

@[simp] theorem setSupply_accounts (ledger : Ledger K) (mint key : K) (value : UInt64) :
    (ledger.setSupply mint value).accounts key = ledger.accounts key := rfl

@[simp] theorem setSupply_self (ledger : Ledger K) (mint : K) (value : UInt64) :
    (ledger.setSupply mint value).supply mint = value.toNat := by
  simp [Ledger.setSupply, Ledger.supply]

theorem setSupply_other (ledger : Ledger K) {mint other : K} (value : UInt64)
    (distinct : other ≠ mint) :
    (ledger.setSupply mint value).supply other = ledger.supply other := by
  simp [Ledger.setSupply, Ledger.supply, distinct]

/-! ### What a successful transfer or burn did -/

/-- A transfer between two accounts moves the amount and touches nothing else. -/
theorem transfer_effects {ledger after : Ledger K} {source destination authority : K}
    {amount : UInt64}
    (success : ledger.transfer source destination authority amount = .ok after)
    (distinct : source ≠ destination) :
    ∃ src dst debited credited, ledger.accounts source = some src ∧
      ledger.accounts destination = some dst ∧ authority = src.owner ∧ src.mint = dst.mint ∧
      src.amount.toNat = UInt64.toNat debited + amount.toNat ∧
      UInt64.toNat credited = dst.amount.toNat + amount.toNat ∧
      after = (ledger.setAccount source (some { src with amount := debited })).setAccount
        destination (some { dst with amount := credited }) := by
  simp only [Ledger.transfer, bind_ok_iff, okOr_ok_iff, require_ok_iff, if_neg distinct,
    pure_ok_iff, checkedSub_eq_some, checkedAdd_eq_some] at success
  obtain ⟨src, hsrc, dst, hdst, _, _, _, hmint, _, howner, debited, hdeb, credited, hcred, rfl⟩ :=
    success
  exact ⟨src, dst, debited, credited, hsrc, hdst, howner, hmint, hdeb, hcred, rfl⟩

/-- Only the owner of the source transfers. -/
theorem transfer_owner {ledger after : Ledger K} {source destination authority : K}
    {amount : UInt64}
    (success : ledger.transfer source destination authority amount = .ok after) :
    ∃ src, ledger.accounts source = some src ∧ authority = src.owner := by
  simp only [Ledger.transfer, bind_ok_iff, okOr_ok_iff, require_ok_iff] at success
  obtain ⟨src, held, _, _, _, _, _, _, _, owner, _⟩ := success
  exact ⟨src, held, owner⟩

/-- A transfer of an account to itself is validated and then changes nothing. -/
theorem transfer_self {ledger after : Ledger K} {source authority : K} {amount : UInt64}
    (success : ledger.transfer source source authority amount = .ok after) : after = ledger := by
  simp only [Ledger.transfer, bind_ok_iff, okOr_ok_iff, require_ok_iff, if_pos,
    pure_ok_iff] at success
  obtain ⟨_, _, _, _, _, _, _, _, _, _, rfl⟩ := success
  rfl

/-- A transfer out of a funded account by its owner goes through unless the
credit overflows. -/
theorem transfer_total (ledger : Ledger K) {source destination : K} {src dst : TokenAccount K}
    (amount : UInt64) (hsrc : ledger.accounts source = some src)
    (hdst : ledger.accounts destination = some dst) (hmint : src.mint = dst.mint)
    (funded : amount.toNat ≤ src.amount.toNat)
    (fits : dst.amount.toNat + amount.toNat < 2 ^ 64) :
    ∃ after, ledger.transfer source destination src.owner amount = .ok after := by
  obtain ⟨debited, hdeb, _⟩ := checkedSub_total src.amount amount funded
  obtain ⟨credited, hcred, _⟩ := checkedAdd_total dst.amount amount fits
  by_cases same : source = destination
  · refine ⟨ledger, ?_⟩
    simp only [Ledger.transfer, bind_ok_iff, okOr_ok_iff, require_ok_iff, if_pos same, pure_ok_iff]
    exact ⟨src, hsrc, dst, hdst, (), UInt64.le_iff_toNat_le.mpr funded, (), hmint, (), rfl, trivial⟩
  · refine ⟨(ledger.setAccount source (some { src with amount := debited })).setAccount
      destination (some { dst with amount := credited }), ?_⟩
    simp only [Ledger.transfer, bind_ok_iff, okOr_ok_iff, require_ok_iff, if_neg same, pure_ok_iff]
    exact ⟨src, hsrc, dst, hdst, (), UInt64.le_iff_toNat_le.mpr funded, (), hmint, (), rfl,
      debited, hdeb, credited, hcred, rfl⟩

theorem burn_effects {ledger after : Ledger K} {source mint authority : K} {amount : UInt64}
    (success : ledger.burn source mint authority amount = .ok after) :
    ∃ src debited total reduced, ledger.accounts source = some src ∧
      ledger.supplies mint = some total ∧ src.mint = mint ∧ authority = src.owner ∧
      src.amount.toNat = UInt64.toNat debited + amount.toNat ∧
      UInt64.toNat total = UInt64.toNat reduced + amount.toNat ∧
      after = (ledger.setAccount source (some { src with amount := debited })).setSupply
        mint reduced := by
  simp only [Ledger.burn, bind_ok_iff, okOr_ok_iff, require_ok_iff, pure_ok_iff,
    checkedSub_eq_some] at success
  obtain ⟨src, hsrc, total, htotal, _, _, _, hmint, _, howner, debited, hdeb, reduced, hred, rfl⟩ :=
    success
  exact ⟨src, debited, total, reduced, hsrc, htotal, hmint, howner, hdeb, hred, rfl⟩

/-- The two balances of a transfer. -/
theorem transfer_balances {ledger after : Ledger K} {source destination authority : K}
    {amount : UInt64}
    (success : ledger.transfer source destination authority amount = .ok after)
    (distinct : source ≠ destination) :
    ledger.balance source = after.balance source + amount.toNat ∧
      after.balance destination = ledger.balance destination + amount.toNat := by
  obtain ⟨src, dst, debited, credited, hsrc, hdst, _, _, hdeb, hcred, rfl⟩ :=
    transfer_effects success distinct
  rw [balance_of_account hsrc, balance_of_account hdst,
    balance_of_account (setAccount_self _ destination _),
    balance_of_account ((setAccount_other _ _ distinct).trans (setAccount_self _ source _))]
  exact ⟨hdeb, hcred⟩

/-- The whole balance of `source` has gone to `destination`. -/
def MovedAll (before after : Ledger K) (source destination : K) : Prop :=
  after.balance source = 0 ∧
    after.balance destination = before.balance destination + before.balance source

/-- A transfer of the whole balance moves it unless the account is sent to itself. -/
theorem transfer_movedAll_iff {ledger after : Ledger K} {source destination authority : K}
    {account : TokenAccount K} (held : ledger.accounts source = some account)
    (success : ledger.transfer source destination authority account.amount = .ok after) :
    MovedAll ledger after source destination ↔
      destination ≠ source ∨ ledger.balance source = 0 := by
  have whole := balance_of_account held
  by_cases same : source = destination
  · subst destination
    rw [transfer_self success, MovedAll]
    constructor
    · intro ⟨empty, _⟩
      exact .inr empty
    · intro condition
      have empty := condition.resolve_left (fun different => different rfl)
      exact ⟨empty, by omega⟩
  · obtain ⟨debit, credit⟩ := transfer_balances success same
    exact ⟨fun _ => .inl (Ne.symm same), fun _ => ⟨by omega, by omega⟩⟩

theorem transfer_other {ledger after : Ledger K} {source destination authority key : K}
    {amount : UInt64}
    (success : ledger.transfer source destination authority amount = .ok after)
    (notSource : key ≠ source) (notDestination : key ≠ destination) :
    after.accounts key = ledger.accounts key := by
  by_cases same : source = destination
  · subst destination
    rw [transfer_self success]
  obtain ⟨src, dst, debited, credited, _, _, _, _, _, _, rfl⟩ := transfer_effects success same
  rw [setAccount_other _ _ notDestination, setAccount_other _ _ notSource]

theorem burn_other {ledger after : Ledger K} {source mint authority key : K} {amount : UInt64}
    (success : ledger.burn source mint authority amount = .ok after) (notSource : key ≠ source) :
    after.accounts key = ledger.accounts key := by
  obtain ⟨src, debited, total, reduced, _, _, _, _, _, _, rfl⟩ := burn_effects success
  rw [setSupply_accounts, setAccount_other _ _ notSource]

omit [DecidableEq K] in
theorem balance_congr {before after : Ledger K} {key : K}
    (same : after.accounts key = before.accounts key) :
    after.balance key = before.balance key := by
  simp only [Ledger.balance, same]

theorem burn_balances {ledger after : Ledger K} {source mint authority : K} {amount : UInt64}
    (success : ledger.burn source mint authority amount = .ok after) :
    ledger.balance source = after.balance source + amount.toNat ∧
      ledger.supply mint = after.supply mint + amount.toNat := by
  obtain ⟨src, debited, total, reduced, hsrc, htotal, _, _, hdeb, hred, rfl⟩ :=
    burn_effects success
  have before : ledger.supply mint = total.toNat := by simp only [Ledger.supply, htotal]
  rw [balance_of_account hsrc, before, setSupply_self,
    balance_of_account ((setSupply_accounts _ _ _ _).trans (setAccount_self _ source _))]
  exact ⟨hdeb, hred⟩

/-! ### Accounts that an operation cannot re-own -/

/-- The account stays with its mint and owner. -/
def Retains (before after : Ledger K) (key : K) : Prop :=
  ∀ account, before.accounts key = some account →
    ∃ amount, after.accounts key = some { account with amount }

omit [DecidableEq K] in
theorem retains_of_eq {before after : Ledger K} {key : K}
    (same : after.accounts key = before.accounts key) : Retains before after key :=
  fun account found => ⟨account.amount, same.trans found⟩

theorem transfer_retains {ledger after : Ledger K} {source destination authority : K}
    {amount : UInt64} (key : K)
    (success : ledger.transfer source destination authority amount = .ok after) :
    Retains ledger after key := by
  by_cases same : source = destination
  · subst destination
    exact retains_of_eq (by rw [transfer_self success])
  obtain ⟨src, dst, debited, credited, hsrc, hdst, _, _, _, _, rfl⟩ :=
    transfer_effects success same
  intro account found
  by_cases credit : key = destination
  · subst key
    cases hdst.symm.trans found
    exact ⟨credited, by simp⟩
  rw [setAccount_other _ _ credit]
  by_cases debit : key = source
  · subst key
    cases hsrc.symm.trans found
    exact ⟨debited, by simp⟩
  exact ⟨account.amount, by rw [setAccount_other _ _ debit, found]⟩

theorem burn_retains {ledger after : Ledger K} {source mint authority : K} {amount : UInt64}
    (key : K) (success : ledger.burn source mint authority amount = .ok after) :
    Retains ledger after key := by
  obtain ⟨src, debited, total, reduced, hsrc, _, _, _, _, _, rfl⟩ := burn_effects success
  intro account found
  by_cases debit : key = source
  · subst key
    cases hsrc.symm.trans found
    exact ⟨debited, by simp⟩
  exact ⟨account.amount, by rw [setSupply_accounts, setAccount_other _ _ debit, found]⟩

/-! ### Accounts that an operation cannot take from -/

/-- The account stays with its mint and owner and does not lose tokens. -/
def Keeps (before after : Ledger K) (key : K) : Prop :=
  ∀ account, before.accounts key = some account →
    ∃ amount, account.amount.toNat ≤ UInt64.toNat amount ∧
      after.accounts key = some { account with amount }

omit [DecidableEq K] in
theorem Keeps.retains {before after : Ledger K} {key : K} (keeps : Keeps before after key) :
    Retains before after key := by
  intro account found
  obtain ⟨amount, _, kept⟩ := keeps account found
  exact ⟨amount, kept⟩

omit [DecidableEq K] in
theorem Keeps.balance_le {before after : Ledger K} {key : K} (keeps : Keeps before after key) :
    before.balance key ≤ after.balance key := by
  cases found : before.accounts key with
  | none => simp [Ledger.balance, found]
  | some account =>
    obtain ⟨amount, grows, kept⟩ := keeps account found
    rw [balance_of_account found, balance_of_account kept]
    exact grows

omit [DecidableEq K] in
theorem keeps_refl (ledger : Ledger K) (key : K) : Keeps ledger ledger key :=
  fun account found => ⟨account.amount, Nat.le_refl _, found⟩

omit [DecidableEq K] in
theorem keeps_of_eq {before after : Ledger K} {key : K}
    (same : after.accounts key = before.accounts key) : Keeps before after key := by
  intro account found
  exact ⟨account.amount, Nat.le_refl _, same.trans found⟩

/-- Only the debited account of a transfer can lose tokens. -/
theorem transfer_keeps {ledger after : Ledger K} {source destination authority key : K}
    {amount : UInt64}
    (success : ledger.transfer source destination authority amount = .ok after)
    (other : key ≠ source) : Keeps ledger after key := by
  by_cases same : source = destination
  · subst destination
    rw [transfer_self success]
    exact keeps_refl ledger key
  obtain ⟨src, dst, debited, credited, _, hdst, _, _, _, hcred, rfl⟩ :=
    transfer_effects success same
  intro account found
  by_cases credit : key = destination
  · subst key
    cases hdst.symm.trans found
    exact ⟨credited, by omega, by simp⟩
  · refine ⟨account.amount, Nat.le_refl _, ?_⟩
    rw [setAccount_other _ _ credit, setAccount_other _ _ other, found]

theorem burn_keeps {ledger after : Ledger K} {source mint authority key : K} {amount : UInt64}
    (success : ledger.burn source mint authority amount = .ok after)
    (other : key ≠ source) : Keeps ledger after key :=
  keeps_of_eq (burn_other success other)

/-- Outside parties can add to an account they cannot sign for, and nothing else. -/
theorem execOperation_keeps {signers : List K} {ledger after : Ledger K} {op : Operation K}
    {key : K} {account : TokenAccount K}
    (success : execOperation signers ledger op = .ok after)
    (found : ledger.accounts key = some account) (foreign : account.owner ∉ signers) :
    Keeps ledger after key := by
  cases op with
  | initializeMint mint =>
    simp only [execOperation, bind_ok_iff, require_ok_iff, pure_ok_iff] at success
    obtain ⟨_, _, rfl⟩ := success
    exact keeps_of_eq rfl
  | initializeAccount opened mint owner =>
    simp only [execOperation, bind_ok_iff, require_ok_iff, okOr_ok_iff, pure_ok_iff] at success
    obtain ⟨_, vacant, _, _, rfl⟩ := success
    apply keeps_of_eq
    apply setAccount_other
    rintro rfl
    simp [vacant] at found
  | mintTo mint credit amount =>
    simp only [execOperation, bind_ok_iff, require_ok_iff, okOr_ok_iff, pure_ok_iff,
      checkedAdd_eq_some] at success
    obtain ⟨dst, hdst, _, _, _, _, credited, hcred, issued, _, rfl⟩ := success
    by_cases same : key = credit
    · subst key
      intro held hheld
      cases hdst.symm.trans hheld
      exact ⟨credited, by omega, by simp⟩
    · apply keeps_of_eq
      rw [setSupply_accounts, setAccount_other _ _ same]
  | transfer source destination authority amount =>
    simp only [execOperation, bind_ok_iff, require_ok_iff] at success
    obtain ⟨_, signed, moved⟩ := success
    by_cases same : key = source
    · subst key
      by_cases loop : source = destination
      · subst destination
        rw [transfer_self moved]
        exact keeps_refl ledger source
      · obtain ⟨src, _, _, _, hsrc, _, howner, _⟩ := transfer_effects moved loop
        cases hsrc.symm.trans found
        exact absurd (howner ▸ signed) foreign
    · exact transfer_keeps moved same
  | burn source mint authority amount =>
    simp only [execOperation, bind_ok_iff, require_ok_iff] at success
    obtain ⟨_, signed, burned⟩ := success
    by_cases same : key = source
    · subst key
      obtain ⟨src, _, _, _, hsrc, _, _, howner, _⟩ := burn_effects burned
      cases hsrc.symm.trans found
      exact absurd (howner ▸ signed) foreign
    · exact burn_keeps burned same
  | setOwner target authority newOwner =>
    simp only [execOperation, bind_ok_iff, require_ok_iff, okOr_ok_iff, pure_ok_iff] at success
    obtain ⟨_, signed, held, hheld, _, howner, rfl⟩ := success
    apply keeps_of_eq
    apply setAccount_other
    rintro rfl
    cases hheld.symm.trans found
    exact foreign (howner ▸ signed)
  | closeAccount target authority =>
    simp only [execOperation, bind_ok_iff, require_ok_iff, okOr_ok_iff, pure_ok_iff] at success
    obtain ⟨_, signed, held, hheld, _, howner, _, _, rfl⟩ := success
    apply keeps_of_eq
    apply setAccount_other
    rintro rfl
    cases hheld.symm.trans found
    exact foreign (howner ▸ signed)

/-! ### Conservation -/

/-- What an address holds of one mint. -/
def Ledger.holding (ledger : Ledger K) (mint key : K) : Nat :=
  match ledger.accounts key with
  | some account => if account.mint = mint then account.amount.toNat else 0
  | none => 0

/-- No finite set of accounts holds more of a mint than was issued. -/
def Conserved (ledger : Ledger K) : Prop :=
  ∀ (mint : K) (keys : Finset K), ∑ key ∈ keys, ledger.holding mint key ≤ ledger.supply mint

theorem holding_of_account {ledger : Ledger K} {key : K} {account : TokenAccount K} (mint : K)
    (found : ledger.accounts key = some account) :
    ledger.holding mint key = if account.mint = mint then account.amount.toNat else 0 := by
  simp only [Ledger.holding, found]

theorem holding_of_eq {before after : Ledger K} {key : K} (mint : K)
    (same : after.accounts key = before.accounts key) :
    after.holding mint key = before.holding mint key := by
  simp only [Ledger.holding, same]

omit [DecidableEq K] in
theorem supply_lt (ledger : Ledger K) (mint : K) : ledger.supply mint < 2 ^ 64 := by
  unfold Ledger.supply
  split
  · exact UInt64.toNat_lt _
  · decide

/-- Two accounts of one mint hold together less than the width of a balance. -/
theorem Conserved.pair_fits {ledger : Ledger K} (conserved : Conserved ledger) {a b : K}
    {x y : TokenAccount K} (hx : ledger.accounts a = some x) (hy : ledger.accounts b = some y)
    (distinct : a ≠ b) (sameMint : x.mint = y.mint) :
    x.amount.toNat + y.amount.toNat < 2 ^ 64 := by
  have bound := conserved y.mint {a, b}
  rw [Finset.sum_pair distinct, holding_of_account _ hx, holding_of_account _ hy,
    if_pos sameMint, if_pos rfl] at bound
  exact Nat.lt_of_le_of_lt bound (supply_lt ledger y.mint)

/-- The whole balance of an account can be moved to every account of its mint. -/
theorem Conserved.transfer_all {ledger : Ledger K} (conserved : Conserved ledger)
    {source destination : K} {paying paid : TokenAccount K}
    (held : ledger.accounts source = some paying)
    (there : ledger.accounts destination = some paid) (mint : paying.mint = paid.mint) :
    ∃ after, ledger.transfer source destination paying.owner paying.amount = .ok after := by
  by_cases same : source = destination
  · subst same
    cases held.symm.trans there
    exact ⟨ledger, by simp [Ledger.transfer, held, okOr, require, bind, Except.bind, pure,
      Except.pure]⟩
  · have fits := conserved.pair_fits held there same mint
    exact transfer_total ledger paying.amount held there mint (Nat.le_refl _) (by omega)

/-- Owners can burn what they hold: the supply covers it. -/
theorem Conserved.burn_total {ledger : Ledger K} (conserved : Conserved ledger) {key : K}
    {account : TokenAccount K} (found : ledger.accounts key = some account)
    (positive : 0 < account.amount.toNat) :
    ∃ after, ledger.burn key account.mint account.owner account.amount = .ok after := by
  have bound := conserved account.mint {key}
  rw [Finset.sum_singleton, holding_of_account _ found, if_pos rfl] at bound
  cases issued : ledger.supplies account.mint with
  | none =>
    simp only [Ledger.supply, issued] at bound
    omega
  | some total =>
    simp only [Ledger.supply, issued] at bound
    obtain ⟨debited, hdeb, _⟩ := checkedSub_total account.amount account.amount (Nat.le_refl _)
    obtain ⟨reduced, hred, _⟩ := checkedSub_total total account.amount bound
    refine ⟨(ledger.setAccount key (some { account with amount := debited })).setSupply
      account.mint reduced, ?_⟩
    simp only [Ledger.burn, bind_ok_iff, okOr_ok_iff, require_ok_iff, pure_ok_iff]
    exact ⟨account, found, total, issued, (), UInt64.le_iff_toNat_le.mpr (Nat.le_refl _), (), rfl,
      (), rfl, debited, hdeb, reduced, hred, rfl⟩

/-- Conservation is local: it is enough to balance the touched accounts against
the change of the supply. -/
theorem conserved_of_touched {before after : Ledger K} (touched : Finset K)
    (conserved : Conserved before)
    (frame : ∀ mint key, key ∉ touched → after.holding mint key = before.holding mint key)
    (budget : ∀ mint, ∑ key ∈ touched, after.holding mint key + before.supply mint ≤
      ∑ key ∈ touched, before.holding mint key + after.supply mint) : Conserved after := by
  intro mint keys
  have old := conserved mint (touched ∪ keys \ touched)
  have rest : ∑ key ∈ keys \ touched, after.holding mint key =
      ∑ key ∈ keys \ touched, before.holding mint key := by
    apply Finset.sum_congr rfl
    intro key member
    exact frame mint key (Finset.mem_sdiff.mp member).2
  have wider : ∑ key ∈ keys, after.holding mint key ≤
      ∑ key ∈ touched ∪ keys \ touched, after.holding mint key := by
    apply Finset.sum_le_sum_of_subset
    intro key member
    by_cases inside : key ∈ touched <;> simp [inside, member]
  rw [Finset.sum_union Finset.disjoint_sdiff] at old wider
  have := budget mint
  omega

/-- The same where one account is touched. -/
theorem conserved_of_single {before after : Ledger K} (target : K) (conserved : Conserved before)
    (frame : ∀ key, key ≠ target → after.accounts key = before.accounts key)
    (budget : ∀ mint, after.holding mint target + before.supply mint ≤
      before.holding mint target + after.supply mint) : Conserved after := by
  apply conserved_of_touched {target} conserved
  · intro mint key untouched
    exact holding_of_eq mint (frame key (Finset.notMem_singleton.mp untouched))
  · intro mint
    rw [Finset.sum_singleton, Finset.sum_singleton]
    exact budget mint

/-- One account and the supply of its mint move by the same amount. -/
theorem conserved_of_issue {ledger : Ledger K} {key mint : K} {account : TokenAccount K}
    {total issued amount : UInt64} (conserved : Conserved ledger)
    (found : ledger.accounts key = some account) (sameMint : account.mint = mint)
    (supply : ledger.supplies mint = some total)
    (moved : amount.toNat + total.toNat = account.amount.toNat + issued.toNat) :
    Conserved
      ((ledger.setAccount key (some { account with amount := amount })).setSupply mint issued) := by
  apply conserved_of_single key conserved
  · intro other apart
    rw [setSupply_accounts, setAccount_other _ _ apart]
  · intro queried
    rw [holding_of_account _ found,
      holding_of_account _ ((setSupply_accounts _ _ _ _).trans (setAccount_self _ key _))]
    dsimp only
    by_cases equal : queried = mint
    · subst queried
      have before : ledger.supply mint = total.toNat := by simp only [Ledger.supply, supply]
      rw [setSupply_self, if_pos sameMint, if_pos sameMint, before]
      omega
    · rw [setSupply_other _ _ equal, setAccount_supply, sameMint, if_neg (Ne.symm equal),
        if_neg (Ne.symm equal)]

theorem transfer_conserved {ledger after : Ledger K} {source destination authority : K}
    {amount : UInt64}
    (success : ledger.transfer source destination authority amount = .ok after)
    (conserved : Conserved ledger) : Conserved after := by
  by_cases same : source = destination
  · subst destination
    rwa [transfer_self success]
  obtain ⟨src, dst, debited, credited, hsrc, hdst, _, hmint, hdeb, hcred, rfl⟩ :=
    transfer_effects success same
  apply conserved_of_touched {source, destination} conserved
  · intro mint key untouched
    simp only [Finset.mem_insert, Finset.mem_singleton, not_or] at untouched
    apply holding_of_eq
    rw [setAccount_other _ _ untouched.2, setAccount_other _ _ untouched.1]
  · intro mint
    rw [Finset.sum_pair same, Finset.sum_pair same, holding_of_account _ hsrc,
      holding_of_account _ hdst, holding_of_account _ (setAccount_self _ destination _),
      holding_of_account _ ((setAccount_other _ _ same).trans (setAccount_self _ source _)),
      setAccount_supply, setAccount_supply]
    dsimp only
    rw [hmint]
    split <;> omega

theorem burn_conserved {ledger after : Ledger K} {source mint authority : K} {amount : UInt64}
    (success : ledger.burn source mint authority amount = .ok after)
    (conserved : Conserved ledger) : Conserved after := by
  obtain ⟨src, debited, total, reduced, hsrc, htotal, hmint, _, hdeb, hred, rfl⟩ :=
    burn_effects success
  exact conserved_of_issue conserved hsrc hmint htotal (by omega)

theorem execOperation_conserved {signers : List K} {ledger after : Ledger K} {op : Operation K}
    (success : execOperation signers ledger op = .ok after)
    (conserved : Conserved ledger) : Conserved after := by
  cases op with
  | initializeMint mint =>
    simp only [execOperation, bind_ok_iff, require_ok_iff, pure_ok_iff] at success
    obtain ⟨_, vacant, rfl⟩ := success
    apply conserved_of_single mint conserved
    · exact fun _ _ => rfl
    · intro queried
      rw [holding_of_eq queried (setSupply_accounts ledger mint mint 0)]
      by_cases equal : queried = mint
      · subst queried
        simp [Ledger.supply, vacant]
      · rw [setSupply_other _ _ equal]
  | initializeAccount opened mint owner =>
    simp only [execOperation, bind_ok_iff, require_ok_iff, okOr_ok_iff, pure_ok_iff] at success
    obtain ⟨_, vacant, _, _, rfl⟩ := success
    apply conserved_of_single opened conserved
    · exact fun _ apart => setAccount_other _ _ apart
    · intro queried
      rw [holding_of_account _ (setAccount_self _ opened _)]
      simp
  | mintTo mint credit amount =>
    simp only [execOperation, bind_ok_iff, require_ok_iff, okOr_ok_iff, pure_ok_iff,
      checkedAdd_eq_some] at success
    obtain ⟨dst, hdst, total, htotal, _, hmint, credited, hcred, issued, hissued, rfl⟩ := success
    exact conserved_of_issue conserved hdst hmint htotal (by omega)
  | transfer source destination authority amount =>
    simp only [execOperation, bind_ok_iff, require_ok_iff] at success
    obtain ⟨_, _, moved⟩ := success
    exact transfer_conserved moved conserved
  | burn source mint authority amount =>
    simp only [execOperation, bind_ok_iff, require_ok_iff] at success
    obtain ⟨_, _, burned⟩ := success
    exact burn_conserved burned conserved
  | setOwner target authority newOwner =>
    simp only [execOperation, bind_ok_iff, require_ok_iff, okOr_ok_iff, pure_ok_iff] at success
    obtain ⟨_, _, held, hheld, _, _, rfl⟩ := success
    apply conserved_of_single target conserved
    · exact fun _ apart => setAccount_other _ _ apart
    · intro queried
      rw [holding_of_account _ hheld, holding_of_account _ (setAccount_self _ target _),
        setAccount_supply]
  | closeAccount target authority =>
    simp only [execOperation, bind_ok_iff, require_ok_iff, okOr_ok_iff, pure_ok_iff] at success
    obtain ⟨_, _, held, hheld, _, _, _, _, rfl⟩ := success
    apply conserved_of_single target conserved
    · exact fun _ apart => setAccount_other _ _ apart
    · intro queried
      have closed : (ledger.setAccount target none).holding queried target = 0 := by
        simp only [Ledger.holding, setAccount_self]
      rw [closed, setAccount_supply]
      omega

/-! ### The order of two transfers -/

/-- Mint and owner of an account. -/
def Ledger.holder (ledger : Ledger K) (key : K) : Option (K × K) :=
  (ledger.accounts key).map fun account => (account.mint, account.owner)

omit [DecidableEq K] in
theorem holder_eq_some {ledger : Ledger K} {key mint owner : K} :
    ledger.holder key = some (mint, owner) ↔
      ∃ account, ledger.accounts key = some account ∧ account.mint = mint ∧
        account.owner = owner := by
  simp only [Ledger.holder, Option.map_eq_some_iff, Prod.mk.injEq]

omit [DecidableEq K] in
theorem balance_lt (ledger : Ledger K) (key : K) : ledger.balance key < 2 ^ 64 := by
  unfold Ledger.balance
  split
  · exact UInt64.toNat_lt _
  · decide

omit [DecidableEq K] in
/-- A ledger is what its accounts hold, for whom, and what was issued. -/
theorem ledger_ext {first second : Ledger K} (holders : ∀ key, first.holder key = second.holder key)
    (balances : ∀ key, first.balance key = second.balance key)
    (supplies : first.supplies = second.supplies) : first = second := by
  have accounts : first.accounts = second.accounts := by
    funext key
    have holder := holders key
    have balance := balances key
    cases hfirst : first.accounts key with
    | none =>
      simp only [Ledger.holder, hfirst, Option.map_none] at holder
      exact (Option.map_eq_none_iff.mp holder.symm).symm
    | some x =>
      simp only [Ledger.holder, hfirst, Option.map_some] at holder
      obtain ⟨y, hsecond, same⟩ := Option.map_eq_some_iff.mp holder.symm
      obtain ⟨mint, owner⟩ := Prod.mk.inj same
      rw [balance_of_account hfirst, balance_of_account hsecond, UInt64.toNat_inj] at balance
      rw [hsecond]
      cases x
      cases y
      simp_all
  cases first
  cases second
  simp_all

section
variable {ledger after : Ledger K} {source destination authority : K} {amount : UInt64}

theorem transfer_holder (success : ledger.transfer source destination authority amount = .ok after)
    (key : K) : after.holder key = ledger.holder key := by
  by_cases same : source = destination
  · subst destination
    rw [transfer_self success]
  obtain ⟨src, dst, debited, credited, hsrc, hdst, _, _, _, _, rfl⟩ := transfer_effects success same
  unfold Ledger.holder
  by_cases credit : key = destination
  · rw [credit, setAccount_self, hdst, Option.map_some, Option.map_some]
  rw [setAccount_other _ _ credit]
  by_cases debit : key = source
  · rw [debit, setAccount_self, hsrc, Option.map_some, Option.map_some]
  rw [setAccount_other _ _ debit]

theorem transfer_supplies
    (success : ledger.transfer source destination authority amount = .ok after) :
    after.supplies = ledger.supplies := by
  by_cases same : source = destination
  · subst destination
    rw [transfer_self success]
  obtain ⟨src, dst, debited, credited, _, _, _, _, _, _, rfl⟩ := transfer_effects success same
  rfl

/-- Every balance after a transfer. -/
theorem transfer_balance (success : ledger.transfer source destination authority amount = .ok after)
    (distinct : source ≠ destination) (key : K) :
    after.balance key + (if key = source then amount.toNat else 0) =
      ledger.balance key + if key = destination then amount.toNat else 0 := by
  obtain ⟨debit, credit⟩ := transfer_balances success distinct
  by_cases paying : key = source
  · rw [if_pos paying, if_neg (paying ▸ distinct), paying, Nat.add_zero]
    exact debit.symm
  by_cases paid : key = destination
  · rw [if_neg paying, if_pos paid, paid, Nat.add_zero]
    exact credit
  · rw [if_neg paying, if_neg paid, balance_congr (transfer_other success paying paid)]

/-- When a transfer between two accounts goes through. -/
theorem transfer_ok_iff (distinct : source ≠ destination) :
    (∃ after, ledger.transfer source destination authority amount = .ok after) ↔
      ∃ mint, ledger.holder source = some (mint, authority) ∧
        (∃ owner, ledger.holder destination = some (mint, owner)) ∧
        amount.toNat ≤ ledger.balance source ∧
        ledger.balance destination + amount.toNat < 2 ^ 64 := by
  constructor
  · intro ⟨after, success⟩
    obtain ⟨src, dst, debited, credited, hsrc, hdst, owner, mint, hdeb, hcred, _⟩ :=
      transfer_effects success distinct
    have width := credited.toNat_lt
    refine ⟨src.mint, holder_eq_some.mpr ⟨src, hsrc, rfl, owner.symm⟩,
      ⟨dst.owner, holder_eq_some.mpr ⟨dst, hdst, mint.symm, rfl⟩⟩, ?_, ?_⟩
    · rw [balance_of_account hsrc]
      omega
    · rw [balance_of_account hdst]
      omega
  · intro ⟨mint, paying, ⟨owner, paid⟩, funded, fits⟩
    obtain ⟨src, hsrc, rfl, rfl⟩ := holder_eq_some.mp paying
    obtain ⟨dst, hdst, mint, _⟩ := holder_eq_some.mp paid
    rw [balance_of_account hsrc] at funded
    rw [balance_of_account hdst] at fits
    exact transfer_total ledger amount hsrc hdst mint.symm funded fits

/-- Two transfers can be swapped if neither pays from what the other pays to. -/
theorem transfer_comm {last : Ledger K} {source' destination' authority' : K} {amount' : UInt64}
    (first : ledger.transfer source destination authority amount = .ok after)
    (second : after.transfer source' destination' authority' amount' = .ok last)
    (apart : source ≠ destination) (apart' : source' ≠ destination')
    (cross : source ≠ destination') (cross' : source' ≠ destination) :
    ∃ early, ledger.transfer source' destination' authority' amount' = .ok early ∧
      early.transfer source destination authority amount = .ok last := by
  obtain ⟨mint, paying, ⟨owner, paid⟩, funded, fits⟩ := (transfer_ok_iff apart).mp ⟨after, first⟩
  obtain ⟨mint', paying', ⟨owner', paid'⟩, funded', fits'⟩ :=
    (transfer_ok_iff apart').mp ⟨last, second⟩
  have middle := transfer_balance first apart
  have final := transfer_balance second apart'
  rw [transfer_holder first] at paying' paid'
  have spared := middle source'
  have growing := middle destination'
  rw [if_neg cross'] at spared
  rw [if_neg cross.symm] at growing
  obtain ⟨early, moved⟩ := (@transfer_ok_iff _ _ ledger _ _ _ amount' apart').mpr
    ⟨mint', paying', ⟨owner', paid'⟩, by omega, by omega⟩
  have between := transfer_balance moved apart'
  rw [← transfer_holder moved] at paying paid
  have enough : amount.toNat ≤ early.balance source := by
    have left := middle source
    have here := between source
    have there := final source
    rw [if_pos rfl, if_neg apart] at left
    rw [if_neg cross] at here there
    omega
  have room : early.balance destination + amount.toNat < 2 ^ 64 := by
    have left := middle destination
    have here := between destination
    have there := final destination
    rw [if_pos rfl, if_neg apart.symm] at left
    rw [if_neg cross'.symm] at here there
    have width := balance_lt last destination
    omega
  obtain ⟨late, moved'⟩ := (@transfer_ok_iff _ _ early _ _ _ amount apart).mpr
    ⟨mint, paying, ⟨owner, paid⟩, enough, room⟩
  have reached := transfer_balance moved' apart
  have same : late = last := by
    apply ledger_ext
    · intro key
      rw [transfer_holder moved', transfer_holder moved, transfer_holder second,
        transfer_holder first]
    · intro key
      have := middle key
      have := final key
      have := between key
      have := reached key
      omega
    · rw [transfer_supplies moved', transfer_supplies moved, transfer_supplies second,
        transfer_supplies first]
  exact ⟨early, moved, same ▸ moved'⟩

end

end MultiDistributor.Lib.TokenLedger
