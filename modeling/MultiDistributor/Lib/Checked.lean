import Mathlib

/-!
# Checked machine arithmetic and fallible sequencing

Fixed-width operations that report overflow instead of wrapping, together with
the casts between widths, each specified once through its exact integer value.
The casts never fail: a signed value is sign-extended and a narrowing cast keeps
the low bits, so a caller has to establish the range itself.

The second part gives the success conditions of `Except` programs built from
guards and converted options. Rewriting with them turns "this program returned
`value`" into the conjunction of everything the program checked on the way.
-/
namespace MultiDistributor.Lib.Checked

/-! ### Unsigned 64-bit values -/

def checkedAdd (a b : UInt64) : Option UInt64 :=
  if a.toNat + b.toNat < 2 ^ 64 then some (a + b) else none

def checkedSub (a b : UInt64) : Option UInt64 :=
  if b ≤ a then some (a - b) else none

/-- The exact sum is the only possible result, and its width is the only obstacle. -/
theorem checkedAdd_eq_some {a b c : UInt64} :
    checkedAdd a b = some c ↔ c.toNat = a.toNat + b.toNat := by
  unfold checkedAdd
  have hc := c.toNat_lt
  split
  · next fits =>
    rw [Option.some.injEq, ← UInt64.toNat_inj, UInt64.toNat_add, Nat.mod_eq_of_lt fits]
    exact eq_comm
  · next wraps =>
    simp only [reduceCtorEq, false_iff]
    omega

theorem checkedSub_eq_some {a b c : UInt64} :
    checkedSub a b = some c ↔ a.toNat = c.toNat + b.toNat := by
  unfold checkedSub
  split
  · next fits =>
    rw [Option.some.injEq, ← UInt64.toNat_inj, UInt64.toNat_sub_of_le a b fits]
    have := UInt64.le_iff_toNat_le.mp fits
    omega
  · next borrow =>
    rw [UInt64.le_iff_toNat_le] at borrow
    simp only [reduceCtorEq, false_iff]
    omega

theorem checkedSub_eq_none {a b : UInt64} : checkedSub a b = none ↔ a.toNat < b.toNat := by
  rw [checkedSub, ite_eq_right_iff, UInt64.le_iff_toNat_le]
  simp

theorem exists_u64 {n : Nat} (fits : n < 2 ^ 64) : ∃ value : UInt64, value.toNat = n :=
  ⟨UInt64.ofNatLT n fits, UInt64.toNat_ofNatLT⟩

/-- Totality of the checked sum under an explicit bound. -/
theorem checkedAdd_total (a b : UInt64) (fits : a.toNat + b.toNat < 2 ^ 64) :
    ∃ c, checkedAdd a b = some c ∧ c.toNat = a.toNat + b.toNat := by
  have sum : checkedAdd a b = some (a + b) := by simp only [checkedAdd, if_pos fits]
  exact ⟨_, sum, checkedAdd_eq_some.mp sum⟩

theorem checkedSub_total (a b : UInt64) (fits : b.toNat ≤ a.toNat) :
    ∃ c, checkedSub a b = some c ∧ a.toNat = c.toNat + b.toNat := by
  have difference : checkedSub a b = some (a - b) := by
    simp only [checkedSub, if_pos (UInt64.le_iff_toNat_le.mpr fits)]
  exact ⟨_, difference, checkedSub_eq_some.mp difference⟩

def checkedMulU64 (a b : UInt64) : Option UInt64 :=
  if a.toNat * b.toNat < 2 ^ 64 then some (a * b) else none

def checkedPowU64 (base : UInt64) (exponent : Nat) : Option UInt64 :=
  if base.toNat ^ exponent < 2 ^ 64 then some (UInt64.ofNat (base.toNat ^ exponent)) else none

theorem checkedMulU64_eq_some {a b c : UInt64} :
    checkedMulU64 a b = some c ↔ c.toNat = a.toNat * b.toNat := by
  unfold checkedMulU64
  have hc := c.toNat_lt
  split
  · next fits =>
    rw [Option.some.injEq, ← UInt64.toNat_inj, UInt64.toNat_mul, Nat.mod_eq_of_lt fits]
    exact eq_comm
  · next wraps =>
    simp only [reduceCtorEq, false_iff]
    omega

theorem checkedPowU64_eq_some {base : UInt64} {exponent : Nat} {c : UInt64} :
    checkedPowU64 base exponent = some c ↔ c.toNat = base.toNat ^ exponent := by
  unfold checkedPowU64
  have hc := c.toNat_lt
  split
  · next fits =>
    rw [Option.some.injEq, ← UInt64.toNat_inj, UInt64.toNat_ofNat', Nat.mod_eq_of_lt fits]
    exact eq_comm
  · next wraps =>
    simp only [reduceCtorEq, false_iff]
    omega

/-! ### Signed 64-bit values -/

def FitsI64 (n : Int) : Prop := -2 ^ 63 ≤ n ∧ n < 2 ^ 63

instance (n : Int) : Decidable (FitsI64 n) := inferInstanceAs (Decidable (_ ∧ _))

def checkedAddI64 (a b : Int64) : Option Int64 :=
  if FitsI64 (a.toInt + b.toInt) then some (Int64.ofInt (a.toInt + b.toInt)) else none

def checkedSubI64 (a b : Int64) : Option Int64 :=
  if FitsI64 (a.toInt - b.toInt) then some (Int64.ofInt (a.toInt - b.toInt)) else none

private theorem ofInt_eq_some {n : Int} {c : Int64} :
    (if FitsI64 n then some (Int64.ofInt n) else none) = some c ↔ c.toInt = n := by
  split
  · next fits =>
    rw [Option.some.injEq, ← Int64.toInt_inj, Int64.toInt_ofInt_of_le fits.1 fits.2]
    exact eq_comm
  · next wraps =>
    simp only [reduceCtorEq, false_iff]
    rintro rfl
    exact wraps ⟨c.le_toInt, c.toInt_lt⟩

theorem checkedAddI64_eq_some {a b c : Int64} :
    checkedAddI64 a b = some c ↔ c.toInt = a.toInt + b.toInt :=
  ofInt_eq_some

theorem checkedSubI64_eq_some {a b c : Int64} :
    checkedSubI64 a b = some c ↔ c.toInt = a.toInt - b.toInt :=
  ofInt_eq_some

theorem checkedSubI64_total (a b : Int64) (fits : FitsI64 (a.toInt - b.toInt)) :
    ∃ c, checkedSubI64 a b = some c ∧ c.toInt = a.toInt - b.toInt := by
  have difference : checkedSubI64 a b = some (Int64.ofInt (a.toInt - b.toInt)) := by
    simp only [checkedSubI64, if_pos fits]
  exact ⟨_, difference, checkedSubI64_eq_some.mp difference⟩

/-! ### Unsigned 128-bit values and casts -/

abbrev U128 := BitVec 128

def U128.checkedMul (a b : U128) : Option U128 :=
  if a.toNat * b.toNat < 2 ^ 128 then some (a * b) else none

def U128.checkedDiv (a b : U128) : Option U128 :=
  if b = 0 then none else some (a / b)

/-- `x as u128` for an unsigned 64-bit `x`. -/
def u64AsU128 (x : UInt64) : U128 := x.toBitVec.setWidth 128

/-- `x as u128` for a signed 64-bit `x`: negative values sign-extend. -/
def i64AsU128 (x : Int64) : U128 := x.toBitVec.signExtend 128

/-- `x as u64` for a 128-bit `x`: the high half is dropped. -/
def u128AsU64 (x : U128) : UInt64 := UInt64.ofBitVec (x.setWidth 64)

theorem checkedMul_eq_some {a b c : U128} :
    a.checkedMul b = some c ↔ c.toNat = a.toNat * b.toNat := by
  unfold U128.checkedMul
  have hc := c.isLt
  split
  · next fits =>
    rw [Option.some.injEq, ← BitVec.toNat_inj, BitVec.toNat_mul, Nat.mod_eq_of_lt fits]
    exact eq_comm
  · next wraps =>
    simp only [reduceCtorEq, false_iff]
    omega

theorem checkedDiv_eq_some {a b c : U128} :
    a.checkedDiv b = some c ↔ b.toNat ≠ 0 ∧ c.toNat = a.toNat / b.toNat := by
  unfold U128.checkedDiv
  split
  · next zero => simp [zero]
  · next nonzero =>
    have positive : b.toNat ≠ 0 := by
      intro equal
      exact nonzero (BitVec.eq_of_toNat_eq equal)
    rw [Option.some.injEq, ← BitVec.toNat_inj, BitVec.toNat_udiv]
    exact ⟨fun h => ⟨positive, h.symm⟩, fun h => h.2.symm⟩

theorem checkedMul_total (a b : U128) (fits : a.toNat * b.toNat < 2 ^ 128) :
    ∃ c, a.checkedMul b = some c ∧ c.toNat = a.toNat * b.toNat := by
  have product : a.checkedMul b = some (a * b) := by simp only [U128.checkedMul, if_pos fits]
  exact ⟨_, product, checkedMul_eq_some.mp product⟩

theorem checkedDiv_total (a b : U128) (nonzero : b.toNat ≠ 0) :
    ∃ c, a.checkedDiv b = some c ∧ c.toNat = a.toNat / b.toNat := by
  have quotient : a.checkedDiv b = some (a / b) := by
    simp only [U128.checkedDiv]
    rw [if_neg]
    rintro rfl
    exact nonzero rfl
  exact ⟨_, quotient, (checkedDiv_eq_some.mp quotient).2⟩

@[simp] theorem u64AsU128_toNat (x : UInt64) : (u64AsU128 x).toNat = x.toNat := by
  have hx := x.toNat_lt
  simp only [u64AsU128, BitVec.toNat_setWidth, UInt64.toNat_toBitVec]
  exact Nat.mod_eq_of_lt (by omega)

theorem i64AsU128_toNat (x : Int64) (nonnegative : 0 ≤ x.toInt) :
    (i64AsU128 x).toNat = x.toInt.toNat := by
  have extended : (i64AsU128 x).toInt = x.toInt := by
    simp [i64AsU128, BitVec.toInt_signExtend_of_le]
  have width := (i64AsU128 x).isLt
  rw [BitVec.toInt_eq_toNat_cond] at extended
  split at extended <;> omega

theorem u128AsU64_toNat (x : U128) : (u128AsU64 x).toNat = x.toNat % 2 ^ 64 := by
  simp [u128AsU64]

/-! ### Fallible sequencing -/

variable {ε α β : Type}

/-- `require!(condition, failure)`. -/
def require (condition : Prop) [Decidable condition] (failure : ε) : Except ε Unit :=
  if condition then .ok () else .error failure

/-- `value.ok_or(failure)?`. -/
def okOr (value : Option α) (failure : ε) : Except ε α :=
  match value with
  | some x => .ok x
  | none => .error failure

theorem bind_ok_iff {step : Except ε α} {next : α → Except ε β} {value : β} :
    (step >>= next) = .ok value ↔ ∃ x, step = .ok x ∧ next x = .ok value := by
  cases step with
  | error e => simp [bind, Except.bind]
  | ok x => simp [bind, Except.bind]

theorem require_ok_iff {condition : Prop} [Decidable condition] {failure : ε} {u : Unit} :
    require condition failure = .ok u ↔ condition := by
  unfold require
  split <;> simp_all

theorem okOr_ok_iff {value : Option α} {failure : ε} {x : α} :
    okOr value failure = .ok x ↔ value = some x := by
  cases value <;> simp [okOr]

theorem bind_error_iff {step : Except ε α} {next : α → Except ε β} {failure : ε} :
    (step >>= next) = .error failure ↔
      step = .error failure ∨ ∃ x, step = .ok x ∧ next x = .error failure := by
  cases step with
  | error e => simp [bind, Except.bind]
  | ok x => simp [bind, Except.bind]

theorem require_error_iff {condition : Prop} [Decidable condition] {failure raised : ε} :
    require condition failure = .error raised ↔ ¬ condition ∧ failure = raised := by
  unfold require
  split <;> simp_all

theorem okOr_error_iff {value : Option α} {failure raised : ε} :
    okOr value failure = .error raised ↔ value = none ∧ failure = raised := by
  cases value <;> simp [okOr]

theorem pure_ok_iff {x y : α} : (pure x : Except ε α) = .ok y ↔ x = y := by
  simp [pure, Except.pure]

theorem pure_ne_error {x : α} {raised : ε} : (pure x : Except ε α) ≠ .error raised :=
  nofun

/-- Each result of a successful traversal comes from one of the inputs. -/
theorem exists_input_of_mapM {f : α → Except ε β} {inputs : List α} {outputs : List β}
    (success : inputs.mapM f = .ok outputs) {output : β} (member : output ∈ outputs) :
    ∃ input ∈ inputs, f input = .ok output := by
  induction inputs generalizing outputs with
  | nil =>
    cases success
    simp at member
  | cons head tail ih =>
    simp only [List.mapM_cons, bind_ok_iff, pure_ok_iff] at success
    obtain ⟨first, applied, rest, traversed, rfl⟩ := success
    rcases List.mem_cons.mp member with rfl | later
    · exact ⟨head, by simp, applied⟩
    · obtain ⟨input, belongs, result⟩ := ih traversed later
      exact ⟨input, by simp [belongs], result⟩

/-- A traversal of steps that all succeed succeeds. -/
theorem mapM_total {f : α → Except ε β} {inputs : List α}
    (each : ∀ input ∈ inputs, ∃ output, f input = .ok output) :
    ∃ outputs, inputs.mapM f = .ok outputs := by
  induction inputs with
  | nil => exact ⟨[], rfl⟩
  | cons head tail ih =>
    obtain ⟨first, applied⟩ := each head (by simp)
    obtain ⟨rest, traversed⟩ := ih fun input member => each input (List.mem_cons_of_mem _ member)
    refine ⟨first :: rest, ?_⟩
    rw [List.mapM_cons, applied]
    simp only [bind_ok_iff, pure_ok_iff]
    exact ⟨first, rfl, rest, traversed, rfl⟩

/-- What each step keeps of its input, the traversal keeps in order. -/
theorem map_of_mapM {γ : Type} {f : α → Except ε β} {seen : β → γ} {kept : α → γ}
    (keeps : ∀ input output, f input = .ok output → seen output = kept input)
    {inputs : List α} {outputs : List β} (success : inputs.mapM f = .ok outputs) :
    outputs.map seen = inputs.map kept := by
  induction inputs generalizing outputs with
  | nil =>
    cases success
    rfl
  | cons head tail ih =>
    simp only [List.mapM_cons, bind_ok_iff, pure_ok_iff] at success
    obtain ⟨first, applied, rest, traversed, rfl⟩ := success
    rw [List.map_cons, List.map_cons, keeps head first applied, ih traversed]

theorem length_of_mapM {f : α → Except ε β} {inputs : List α} {outputs : List β}
    (success : inputs.mapM f = .ok outputs) : outputs.length = inputs.length := by
  have kept : outputs.map (fun _ => ()) = inputs.map fun _ => () :=
    map_of_mapM (fun _ _ _ => rfl) success
  simpa using congrArg List.length kept

/-- A traversal can be cut at any position. -/
theorem mapM_split {f : α → Except ε β} (n : Nat) {inputs : List α} {outputs : List β} :
    inputs.mapM f = .ok outputs ↔
      (inputs.take n).mapM f = .ok (outputs.take n) ∧
        (inputs.drop n).mapM f = .ok (outputs.drop n) := by
  induction inputs generalizing n outputs with
  | nil =>
    constructor
    · intro success
      cases success
      simp [pure, Except.pure]
    · rintro ⟨front, back⟩
      simp only [List.take_nil, List.drop_nil, List.mapM_nil, pure_ok_iff] at front back ⊢
      rw [← List.take_append_drop n outputs, ← front, ← back]
      rfl
  | cons head tail ih =>
    cases n with
    | zero => simp [pure, Except.pure]
    | succ n =>
      cases outputs with
      | nil =>
        simp only [List.take_succ_cons, List.take_nil, List.mapM_cons, bind_ok_iff, pure_ok_iff,
          reduceCtorEq, and_false, exists_false, false_and]
      | cons first rest =>
        simp only [List.take_succ_cons, List.drop_succ_cons, List.mapM_cons, bind_ok_iff,
          pure_ok_iff, List.cons.injEq]
        constructor
        · rintro ⟨_, applied, _, traversed, rfl, rfl⟩
          exact ⟨⟨_, applied, _, ((ih n).mp traversed).1, rfl, rfl⟩, ((ih n).mp traversed).2⟩
        · rintro ⟨⟨_, applied, _, front, rfl, rfl⟩, back⟩
          exact ⟨_, applied, _, (ih n).mpr ⟨front, back⟩, rfl, rfl⟩

/-- The outputs of a successful traversal stand at the positions of their inputs. -/
theorem getElem?_of_mapM {f : α → Except ε β} {inputs : List α} {outputs : List β}
    (success : inputs.mapM f = .ok outputs) (i : Nat) (output : β) :
    outputs[i]? = some output ↔ ∃ input, inputs[i]? = some input ∧ f input = .ok output := by
  induction inputs generalizing outputs i with
  | nil =>
    cases success
    simp
  | cons head tail ih =>
    simp only [List.mapM_cons, bind_ok_iff, pure_ok_iff] at success
    obtain ⟨first, applied, rest, traversed, rfl⟩ := success
    cases i with
    | zero => simp [applied]
    | succ i => simpa using ih traversed i

/-- Relating what was read so far to the state of a loop: it is enough that each iteration
extends the relation by its item. -/
theorem foldlM_seen {σ : Type} {step : σ → α → Except ε σ} {relation : List α → σ → Prop}
    (keeps : ∀ {seen : List α} {state next : σ} {item : α}, relation seen state →
      step state item = .ok next → relation (seen ++ [item]) next)
    {seen rest : List α} {state result : σ} (held : relation seen state)
    (success : rest.foldlM step state = .ok result) : relation (seen ++ rest) result := by
  induction rest generalizing seen state with
  | nil =>
    cases success
    rw [List.append_nil]
    exact held
  | cons item rest ih =>
    rw [List.foldlM_cons, bind_ok_iff] at success
    obtain ⟨next, stepped, later⟩ := success
    have remaining := ih (keeps held stepped) later
    rwa [List.append_assoc, List.singleton_append] at remaining

/-- A loop runs to its end if every iteration can be made whenever the items up to it are
within a bound that holds of the whole list. -/
theorem foldlM_total {σ : Type} {step : σ → α → Except ε σ} {relation : List α → σ → Prop}
    {bounded : List α → Prop}
    (keeps : ∀ {seen : List α} {state next : σ} {item : α}, relation seen state →
      step state item = .ok next → relation (seen ++ [item]) next)
    (runs : ∀ {seen : List α} {state : σ} {item : α}, relation seen state →
      bounded (seen ++ [item]) → ∃ next, step state item = .ok next)
    (shorter : ∀ {front back : List α}, bounded (front ++ back) → bounded front)
    {seen rest : List α} {state : σ} (held : relation seen state)
    (whole : bounded (seen ++ rest)) : ∃ result, rest.foldlM step state = .ok result := by
  induction rest generalizing seen state with
  | nil => exact ⟨state, rfl⟩
  | cons item rest ih =>
    rw [← List.singleton_append, ← List.append_assoc] at whole
    obtain ⟨next, stepped⟩ := runs held (shorter whole)
    obtain ⟨result, later⟩ := ih (keeps held stepped) whole
    exact ⟨result, by rw [List.foldlM_cons, bind_ok_iff]; exact ⟨next, stepped, later⟩⟩

/-- A loop that adds up what it reads returns the exact sum, as long as every item can be
read and the sum is a `u64`. -/
theorem foldlM_sum_ok_iff {step : UInt64 → α → Except ε UInt64} {valid : α → Prop}
    {value : α → Nat} (spec : ∀ acc x next, step acc x = .ok next ↔
      valid x ∧ next.toNat = acc.toNat + value x)
    {inputs : List α} {start total : UInt64} :
    inputs.foldlM step start = .ok total ↔
      (∀ x ∈ inputs, valid x) ∧ total.toNat = start.toNat + (inputs.map value).sum := by
  induction inputs generalizing start with
  | nil => simp [pure, Except.pure, ← UInt64.toNat_inj, eq_comm]
  | cons head tail ih =>
    simp only [List.foldlM_cons, bind_ok_iff, spec, ih, List.forall_mem_cons, List.map_cons,
      List.sum_cons]
    constructor
    · intro ⟨next, ⟨valid, sum⟩, rest, later⟩
      exact ⟨⟨valid, rest⟩, by omega⟩
    · intro ⟨⟨valid, rest⟩, sum⟩
      have width := total.toNat_lt
      have reached : start.toNat + value head < 2 ^ 64 := by omega
      obtain ⟨next, added⟩ := exists_u64 reached
      exact ⟨next, ⟨valid, added⟩, rest, by omega⟩

theorem forM_ok {f : α → Except ε Unit} {inputs : List α}
    (each : ∀ input ∈ inputs, f input = .ok ()) : inputs.forM f = .ok () := by
  induction inputs with
  | nil => rfl
  | cons head tail ih =>
    have rest := ih fun input member => each input (List.mem_cons_of_mem _ member)
    change (f head >>= fun _ => tail.forM f) = .ok ()
    rw [each head (by simp)]
    exact rest

theorem forM_ok_iff {f : α → Except ε Unit} {inputs : List α} :
    inputs.forM f = .ok () ↔ ∀ input ∈ inputs, f input = .ok () := by
  refine ⟨fun success => ?_, forM_ok⟩
  induction inputs with
  | nil => simp
  | cons head tail ih =>
    change (f head >>= fun _ => tail.forM f) = .ok () at success
    obtain ⟨_, first, rest⟩ := bind_ok_iff.mp success
    intro input member
    rcases List.mem_cons.mp member with rfl | later
    · exact first
    · exact ih rest input later

theorem mapError_ok_iff {ε' : Type} {step : Except ε α} {lift : ε → ε'} {x : α} :
    step.mapError lift = .ok x ↔ step = .ok x := by
  cases step <;> simp [Except.mapError]

theorem mapError_error_iff {ε' : Type} {step : Except ε α} {lift : ε → ε'} {raised : ε'} :
    step.mapError lift = .error raised ↔
      ∃ failure, step = .error failure ∧ lift failure = raised := by
  cases step <;> simp [Except.mapError]

end MultiDistributor.Lib.Checked
