import MultiDistributor.Lib.TokenLedger
import Mathlib.Logic.Function.Basic

/-!
# Close authorities and freezing

What the SPL Token program keeps of a token account and a mint beside balances, owners and
supplies. The freeze authority of a mint can freeze the token accounts of the mint, and a
frozen account takes part in no transfer, burn or issue and changes no authority until it is
thawed. A close authority takes the place of the owner in closing an account. It outlives a
change of owner, so an account can be given away while somebody else stays entitled to close
it.

Delegates are left out: an approval ends with the ownership of who gave it, and what a
delegate moves the owner could have moved. Native accounts and the extensions of Token-2022
are not represented.

An account whose owner does not sign and that has no close authority is left as it is by
these operations, and gets none (`execAuthority_keeps`).
-/
namespace MultiDistributor.Lib.TokenLedger
open Checked

variable {K : Type}

/-- Close authorities and states of token accounts, and freeze authorities of mints. -/
structure Authorities (K : Type) where
  closing : K → Option K
  frozen : K → Bool
  freezing : K → Option K

/-- Nobody was given an authority, and nothing is frozen. -/
def Authorities.nobody : Authorities K where
  closing _ := none
  frozen _ := false
  freezing _ := none

inductive AuthorityError where
  | token (failure : TokenError)
  | accountFrozen | invalidState | mintCannotFreeze
  deriving DecidableEq, Repr

/-- Accounts for which an operation is refused while they are frozen. -/
def Operation.thawed : Operation K → List K
  | .mintTo _ account _ => [account]
  | .transfer source destination _ _ => [source, destination]
  | .burn source _ _ _ => [source]
  | .setOwner account _ _ => [account]
  | .initializeMint _ => []
  | .initializeAccount _ _ _ => []
  | .closeAccount _ _ => []

def Authorities.requireThawed (authorities : Authorities K) (accounts : List K) :
    Except AuthorityError Unit :=
  require (∀ account ∈ accounts, authorities.frozen account = false) .accountFrozen

variable [DecidableEq K]

/-- What the authorities add to the checks of an operation. An owner closes an account only
where no close authority was set. -/
def Authorities.check (authorities : Authorities K) (operation : Operation K) :
    Except AuthorityError Unit :=
  match operation with
  | .closeAccount account _ => require (authorities.closing account = none) (.token .ownerMismatch)
  | _ => authorities.requireThawed operation.thawed

/-- A new mint has no freeze authority, a new account is neither frozen nor has it a close
authority. -/
def Authorities.after (authorities : Authorities K) : Operation K → Authorities K
  | .initializeMint mint =>
      { authorities with freezing := Function.update authorities.freezing mint none }
  | .initializeAccount account _ _ =>
      { authorities with
        closing := Function.update authorities.closing account none
        frozen := Function.update authorities.frozen account false }
  | _ => authorities

/-- Operations on authorities and under them. -/
inductive AuthorityOperation (K : Type) where
  | initializeFreezableMint (mint freezeAuthority : K)
  | setFreezeAuthority (mint authority : K) (newAuthority : Option K)
  | freezeAccount (account mint authority : K)
  | thawAccount (account mint authority : K)
  | setCloseAuthority (account authority : K) (newAuthority : Option K)
  | closeAccount (account authority : K)
  deriving Repr

/-- Freezing and thawing differ in the state they set. -/
def toggleFrozen (frozen : Bool) (signers : List K) (ledger : Ledger K)
    (authorities : Authorities K) (account mint authority : K) :
    Except AuthorityError (Authorities K) := do
  let held ← okOr (ledger.accounts account) (.token .uninitializedState)
  require (authorities.frozen account ≠ frozen) .invalidState
  require (held.mint = mint) (.token .mintMismatch)
  let freezeAuthority ← okOr (authorities.freezing mint) .mintCannotFreeze
  require (authority = freezeAuthority) (.token .ownerMismatch)
  require (authority ∈ signers) (.token .missingSignature)
  return { authorities with frozen := Function.update authorities.frozen account frozen }

/-- One operation under the given signatures. The close authority closes an account as its
owner would. -/
def execAuthority (signers : List K) (ledger : Ledger K) (authorities : Authorities K) :
    AuthorityOperation K → Except AuthorityError (Ledger K × Authorities K)
  | .initializeFreezableMint mint freezeAuthority => do
      let after ← (execOperation signers ledger (.initializeMint mint)).mapError .token
      return (after, { authorities with
        freezing := Function.update authorities.freezing mint (some freezeAuthority) })
  | .setFreezeAuthority mint authority newAuthority => do
      let _ ← okOr (ledger.supplies mint) (.token .invalidMint)
      let freezeAuthority ← okOr (authorities.freezing mint) .mintCannotFreeze
      require (authority = freezeAuthority) (.token .ownerMismatch)
      require (authority ∈ signers) (.token .missingSignature)
      return (ledger, { authorities with
        freezing := Function.update authorities.freezing mint newAuthority })
  | .freezeAccount account mint authority => do
      let after ← toggleFrozen true signers ledger authorities account mint authority
      return (ledger, after)
  | .thawAccount account mint authority => do
      let after ← toggleFrozen false signers ledger authorities account mint authority
      return (ledger, after)
  | .setCloseAuthority account authority newAuthority => do
      let held ← okOr (ledger.accounts account) (.token .uninitializedState)
      authorities.requireThawed [account]
      require (authority = (authorities.closing account).getD held.owner) (.token .ownerMismatch)
      require (authority ∈ signers) (.token .missingSignature)
      return (ledger, { authorities with
        closing := Function.update authorities.closing account newAuthority })
  | .closeAccount account authority => do
      let held ← okOr (ledger.accounts account) (.token .uninitializedState)
      require (authorities.closing account = some authority) (.token .ownerMismatch)
      require (authority ∈ signers) (.token .missingSignature)
      let after ← (execOperation [held.owner] ledger
        (.closeAccount account held.owner)).mapError .token
      return (after, authorities)

theorem Authorities.after_closing {authorities : Authorities K} {key : K}
    (unset : authorities.closing key = none) (operation : Operation K) :
    (authorities.after operation).closing key = none := by
  cases operation with
  | initializeAccount account mint owner =>
    simp only [Authorities.after, Function.update_apply]
    split
    · rfl
    · exact unset
  | initializeMint mint => exact unset
  | mintTo mint account amount => exact unset
  | transfer source destination authority amount => exact unset
  | burn source mint authority amount => exact unset
  | setOwner account authority newOwner => exact unset
  | closeAccount account authority => exact unset

theorem toggleFrozen_closing {frozen : Bool} {signers : List K} {ledger : Ledger K}
    {authorities after : Authorities K} {account mint authority : K}
    (success : toggleFrozen frozen signers ledger authorities account mint authority = .ok after) :
    after.closing = authorities.closing := by
  simp only [toggleFrozen, bind_ok_iff, okOr_ok_iff, require_ok_iff, pure_ok_iff] at success
  obtain ⟨_, _, _, _, _, _, _, _, _, _, _, _, rfl⟩ := success
  rfl

/-- The ledger changes by one of its own operations, or not at all. -/
theorem execAuthority_ledger {signers : List K} {ledger after : Ledger K}
    {authorities next : Authorities K} {operation : AuthorityOperation K}
    (success : execAuthority signers ledger authorities operation = .ok (after, next)) :
    after = ledger ∨ ∃ owners inner, execOperation owners ledger inner = .ok after := by
  cases operation with
  | initializeFreezableMint mint freezeAuthority =>
    simp only [execAuthority, bind_ok_iff, mapError_ok_iff, pure_ok_iff, Prod.mk.injEq] at success
    obtain ⟨_, done, rfl, _⟩ := success
    exact .inr ⟨signers, _, done⟩
  | closeAccount account authority =>
    simp only [execAuthority, bind_ok_iff, okOr_ok_iff, require_ok_iff, mapError_ok_iff,
      pure_ok_iff, Prod.mk.injEq] at success
    obtain ⟨held, _, _, _, _, _, _, done, rfl, _⟩ := success
    exact .inr ⟨[held.owner], _, done⟩
  | setFreezeAuthority mint authority newAuthority =>
    simp only [execAuthority, bind_ok_iff, okOr_ok_iff, require_ok_iff, pure_ok_iff,
      Prod.mk.injEq] at success
    obtain ⟨_, _, _, _, _, _, _, _, rfl, _⟩ := success
    exact .inl rfl
  | freezeAccount account mint authority =>
    simp only [execAuthority, bind_ok_iff, pure_ok_iff, Prod.mk.injEq] at success
    obtain ⟨_, _, rfl, _⟩ := success
    exact .inl rfl
  | thawAccount account mint authority =>
    simp only [execAuthority, bind_ok_iff, pure_ok_iff, Prod.mk.injEq] at success
    obtain ⟨_, _, rfl, _⟩ := success
    exact .inl rfl
  | setCloseAuthority account authority newAuthority =>
    simp only [execAuthority, bind_ok_iff, okOr_ok_iff, require_ok_iff, pure_ok_iff,
      Prod.mk.injEq] at success
    obtain ⟨_, _, _, _, _, _, _, _, rfl, _⟩ := success
    exact .inl rfl

theorem execAuthority_conserved {signers : List K} {ledger after : Ledger K}
    {authorities next : Authorities K} {operation : AuthorityOperation K}
    (success : execAuthority signers ledger authorities operation = .ok (after, next))
    (conserved : Conserved ledger) : Conserved after := by
  rcases execAuthority_ledger success with rfl | ⟨_, _, done⟩
  · exact conserved
  · exact execOperation_conserved done conserved

/-- Only its owner could give an account a close authority, and only a close authority could
close it here. -/
theorem execAuthority_keeps {signers : List K} {ledger after : Ledger K}
    {authorities next : Authorities K} {operation : AuthorityOperation K} {key : K}
    {account : TokenAccount K}
    (success : execAuthority signers ledger authorities operation = .ok (after, next))
    (held : ledger.accounts key = some account) (unsigned : account.owner ∉ signers)
    (unset : authorities.closing key = none) :
    after.accounts key = some account ∧ next.closing key = none := by
  cases operation with
  | initializeFreezableMint mint freezeAuthority =>
    simp only [execAuthority, execOperation, bind_ok_iff, mapError_ok_iff, require_ok_iff,
      pure_ok_iff, Prod.mk.injEq] at success
    obtain ⟨_, ⟨_, _, rfl⟩, rfl, rfl⟩ := success
    exact ⟨held, unset⟩
  | setFreezeAuthority mint authority newAuthority =>
    simp only [execAuthority, bind_ok_iff, okOr_ok_iff, require_ok_iff, pure_ok_iff,
      Prod.mk.injEq] at success
    obtain ⟨_, _, _, _, _, _, _, _, rfl, rfl⟩ := success
    exact ⟨held, unset⟩
  | freezeAccount other mint authority =>
    simp only [execAuthority, bind_ok_iff, pure_ok_iff, Prod.mk.injEq] at success
    obtain ⟨_, toggled, rfl, rfl⟩ := success
    exact ⟨held, by rw [toggleFrozen_closing toggled, unset]⟩
  | thawAccount other mint authority =>
    simp only [execAuthority, bind_ok_iff, pure_ok_iff, Prod.mk.injEq] at success
    obtain ⟨_, toggled, rfl, rfl⟩ := success
    exact ⟨held, by rw [toggleFrozen_closing toggled, unset]⟩
  | setCloseAuthority other authority newAuthority =>
    simp only [execAuthority, bind_ok_iff, okOr_ok_iff, require_ok_iff, pure_ok_iff,
      Prod.mk.injEq] at success
    obtain ⟨found, there, _, _, _, entitled, _, signed, rfl, rfl⟩ := success
    refine ⟨held, ?_⟩
    by_cases same : key = other
    · subst other
      cases held.symm.trans there
      rw [unset, Option.getD_none] at entitled
      exact absurd (entitled ▸ signed) unsigned
    · exact (Function.update_of_ne same _ _).trans unset
  | closeAccount other authority =>
    simp only [execAuthority, execOperation, bind_ok_iff, okOr_ok_iff, require_ok_iff,
      mapError_ok_iff, pure_ok_iff, Prod.mk.injEq] at success
    obtain ⟨_, _, _, entitled, _, _, _, ⟨_, _, _, _, _, _, _, _, rfl⟩, rfl, rfl⟩ := success
    have apart : key ≠ other := by
      rintro rfl
      cases unset.symm.trans entitled
    exact ⟨(setAccount_other _ _ apart).trans held, unset⟩

end MultiDistributor.Lib.TokenLedger
