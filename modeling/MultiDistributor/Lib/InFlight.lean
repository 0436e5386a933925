import Mathlib

/-!
# Transfers in flight

A sender tops an account up: each of its runs ends with a transfer, or with none because
nothing was missing. A transfer is in flight until it lands or is dropped. `surplus` is what
the account holds above its target; it is negative while something is missing.

Two facts about a list of runs are kept through any interleaving. Each transfer in flight
makes up for what is missing, and the transfers in flight together do not exceed it.
-/
namespace MultiDistributor.Lib.InFlight

inductive Transfer (A : Type) where
  | unneeded
  | pending (amount : A)
  | landed (amount : A)
  | dropped (amount : A)
  deriving DecidableEq, Repr

/-- The run left nothing missing, or its transfer has arrived. -/
def Transfer.Complete {A : Type} : Transfer A → Prop
  | .unneeded => True
  | .landed _ => True
  | .pending _ => False
  | .dropped _ => False

variable {A : Type} (size : A → Nat)

def Transfer.inFlight : Transfer A → Nat
  | .pending amount => size amount
  | _ => 0

/-- The sum of all transfers in flight. -/
def total (runs : List (Transfer A)) : Nat := (runs.map (Transfer.inFlight size)).sum

/-- Once complete, a run leaves nothing missing; until then its transfer makes up for it. -/
def Transfer.MakesUp (surplus : Int) : Transfer A → Prop
  | .pending amount => 0 ≤ surplus + size amount
  | .dropped _ => True
  | .unneeded => 0 ≤ surplus
  | .landed _ => 0 ≤ surplus

/-- Every run makes up for what is missing. -/
def Covers (surplus : Int) (runs : List (Transfer A)) : Prop :=
  ∀ transfer ∈ runs, transfer.MakesUp size surplus

/-- The transfers in flight do not exceed what is missing. -/
def Within (surplus : Int) (runs : List (Transfer A)) : Prop := surplus + total size runs ≤ 0

/-! ### What is missing and made up for -/

theorem Transfer.MakesUp.complete {surplus : Int} {transfer : Transfer A}
    (makesUp : transfer.MakesUp size surplus) (complete : transfer.Complete) : 0 ≤ surplus := by
  cases transfer with
  | unneeded => exact makesUp
  | pending amount => exact complete.elim
  | landed amount => exact makesUp
  | dropped amount => exact complete.elim

theorem Transfer.MakesUp.mono {before after : Int} {transfer : Transfer A}
    (makesUp : transfer.MakesUp size before) (grows : before ≤ after) :
    transfer.MakesUp size after := by
  cases transfer with
  | unneeded => exact makesUp.trans grows
  | pending amount => exact makesUp.trans (Int.add_le_add_right grows _)
  | landed amount => exact makesUp.trans grows
  | dropped amount => trivial

theorem Covers.mono {before after : Int} {runs : List (Transfer A)}
    (covers : Covers size before runs) (grows : before ≤ after) : Covers size after runs :=
  fun transfer member => (covers transfer member).mono size grows

theorem Covers.concat {surplus : Int} {runs : List (Transfer A)} {transfer : Transfer A}
    (covers : Covers size surplus runs) (makesUp : transfer.MakesUp size surplus) :
    Covers size surplus (runs ++ [transfer]) := by
  intro other member
  rcases List.mem_append.mp member with earlier | last
  · exact covers other earlier
  · rw [List.mem_singleton.mp last]
    exact makesUp

theorem Covers.set {surplus : Int} {runs : List (Transfer A)} {transfer : Transfer A}
    (covers : Covers size surplus runs) (index : Nat) (makesUp : transfer.MakesUp size surplus) :
    Covers size surplus (runs.set index transfer) := by
  intro other member
  rcases List.mem_or_eq_of_mem_set member with earlier | rfl
  · exact covers other earlier
  · exact makesUp

/-- A transfer that lands makes up for all that was missing. -/
theorem Covers.land {surplus : Int} {runs : List (Transfer A)} {index : Nat} {amount : A}
    (covers : Covers size surplus runs) (sent : runs[index]? = some (.pending amount)) :
    Covers size (surplus + size amount) (runs.set index (.landed amount)) := by
  have promised := covers _ (List.mem_of_getElem? sent)
  exact (covers.mono size (by omega)).set size index promised

theorem Covers.drop {surplus : Int} {runs : List (Transfer A)} (index : Nat) (amount : A)
    (covers : Covers size surplus runs) :
    Covers size surplus (runs.set index (.dropped amount)) :=
  covers.set size index trivial

/-! ### Transfers that do not exceed it -/

@[simp] theorem total_nil : total size [] = 0 := rfl

theorem total_concat (runs : List (Transfer A)) (transfer : Transfer A) :
    total size (runs ++ [transfer]) = total size runs + transfer.inFlight size := by
  simp [total]

theorem total_eq_zero {runs : List (Transfer A)}
    (arrived : ∀ amount, Transfer.pending amount ∉ runs) : total size runs = 0 := by
  refine List.sum_eq_zero fun value member => ?_
  obtain ⟨transfer, listed, rfl⟩ := List.mem_map.mp member
  cases transfer with
  | pending amount => exact absurd listed (arrived amount)
  | unneeded => rfl
  | landed amount => rfl
  | dropped amount => rfl

/-- Replacing a transfer in flight by one that is not takes it off the sum. -/
theorem total_set {runs : List (Transfer A)} {index : Nat} {amount : A} {settled : Transfer A}
    (sent : runs[index]? = some (.pending amount)) (still : settled.inFlight size = 0) :
    total size runs = total size (runs.set index settled) + size amount := by
  induction runs generalizing index with
  | nil => cases sent
  | cons head rest ih =>
    cases index with
    | zero =>
      obtain rfl : head = .pending amount := Option.some.inj sent
      simp only [total, List.set_cons_zero, List.map_cons, List.sum_cons, still]
      rw [Transfer.inFlight]
      omega
    | succ index =>
      have later := ih sent
      simp only [total, List.set_cons_succ, List.map_cons, List.sum_cons] at later ⊢
      omega

theorem Within.unneeded {surplus : Int} {runs : List (Transfer A)}
    (within : Within size surplus runs) : Within size surplus (runs ++ [.unneeded]) := by
  unfold Within
  rw [total_concat]
  exact within

/-- With nothing else in flight, a transfer of no more than what is missing may be sent. -/
theorem within_send {surplus : Int} {runs : List (Transfer A)} {amount : A}
    (arrived : ∀ earlier, Transfer.pending earlier ∉ runs) (missing : surplus + size amount ≤ 0) :
    Within size surplus (runs ++ [.pending amount]) := by
  unfold Within
  rw [total_concat, total_eq_zero size arrived, Nat.zero_add]
  exact missing

theorem Within.land {surplus : Int} {runs : List (Transfer A)} {index : Nat} {amount : A}
    (within : Within size surplus runs) (sent : runs[index]? = some (.pending amount)) :
    Within size (surplus + size amount) (runs.set index (.landed amount)) := by
  have sum := total_set size sent (show Transfer.inFlight size (.landed amount) = 0 from rfl)
  unfold Within at within ⊢
  omega

theorem Within.drop {surplus : Int} {runs : List (Transfer A)} {index : Nat} {amount : A}
    (within : Within size surplus runs) (sent : runs[index]? = some (.pending amount)) :
    Within size surplus (runs.set index (.dropped amount)) := by
  have sum := total_set size sent (show Transfer.inFlight size (.dropped amount) = 0 from rfl)
  unfold Within at within ⊢
  omega

theorem Within.mono {before after : Int} {runs : List (Transfer A)}
    (within : Within size before runs) (shrinks : after ≤ before) : Within size after runs := by
  unfold Within at within ⊢
  omega

end MultiDistributor.Lib.InFlight
