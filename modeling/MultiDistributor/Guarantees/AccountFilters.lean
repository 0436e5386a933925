import MultiDistributor.Source.AccountData

/-!
# Byte filters against the claim status layout

The fields of a claim status start at bytes 8, 40, 48, 56, 64, 72 and 73. The filter of
the API reads the distributor where it is. The filter of the two CLI commands was written
for a layout without the claimed amount: the byte it compares is the low byte of that
amount, and the closable flag is eight bytes further.
-/
namespace MultiDistributor.Source
open Lib Lib.ByteString

/-- A comparison as wide as the field that starts at its offset compares that field. -/
theorem memcmp_allows_iff {front field rest bytes : Bytes} (width : bytes.length = field.length) :
    (RpcFilterType.memcmp front.length bytes).allows (front ++ (field ++ rest)) = true ↔
      field = bytes := by
  have inside : front.length ≤ (front ++ (field ++ rest)).length := by
    rw [List.length_append]
    omega
  have enough : bytes.length ≤ (field ++ rest).length := by
    rw [List.length_append]
    omega
  rw [RpcFilterType.allows, decide_eq_true_eq, List.drop_left, width, List.take_left]
  rw [width] at enough
  exact ⟨fun held => held.2.2, fun same => ⟨inside, enough, same⟩⟩

section
variable (H : HashFunction) (status : ClaimStatus)

/-- Everything before the claimed amount, which starts at byte 64. -/
def beforeClaimed : Bytes :=
  accountDiscriminator H "ClaimStatus" ++ (status.claimant.bytes ++
    (toLeBytes status.lockedAmount ++ (toLeBytes status.lockedAmountWithdrawn ++
      toLeBytes status.unlockedAmount)))

/-- Everything before the distributor, which starts at byte 73. -/
def beforeDistributor : Bytes :=
  beforeClaimed H status ++ (toLeBytes status.unlockedAmountClaimed ++
    FixedLayout.bool.encode status.closable)

/-- The zeros at the end of the account. -/
def padding : Bytes := List.replicate (ClaimStatus.len - 8 - claimStatusLayout.width) 0

theorem beforeClaimed_length : (beforeClaimed H status).length = 64 := by
  simp [beforeClaimed, accountDiscriminator_length, Bytes32.length_eq]

theorem beforeDistributor_length : (beforeDistributor H status).length = 73 := by
  rw [beforeDistributor, List.length_append, List.length_append, beforeClaimed_length,
    toLeBytes_length, FixedLayout.bool.encode_length]
  rfl

theorem accountData_eq :
    status.accountData H = beforeDistributor H status ++ (status.distributor.bytes ++ padding) := by
  have fields : claimStatusLayout.encode status = status.claimant.bytes ++
      (toLeBytes status.lockedAmount ++ (toLeBytes status.lockedAmountWithdrawn ++
        (toLeBytes status.unlockedAmount ++ (toLeBytes status.unlockedAmountClaimed ++
          (FixedLayout.bool.encode status.closable ++ status.distributor.bytes))))) := rfl
  simp only [ClaimStatus.accountData, fields, beforeDistributor, beforeClaimed, padding,
    List.append_assoc]

theorem accountData_length : (status.accountData H).length = ClaimStatus.len := by
  rw [accountData_eq, List.length_append, List.length_append, beforeDistributor_length,
    Bytes32.length_eq, padding, List.length_replicate]
  rfl

/-- The bytes of the account with the low byte of the claimed amount set apart. -/
theorem accountData_low_byte :
    ∃ rest, status.accountData H = beforeClaimed H status ++
      ([UInt8.ofNat status.unlockedAmountClaimed.toNat] ++ rest) := by
  refine ⟨leBytes 7 (status.unlockedAmountClaimed.toNat / 256) ++
    (FixedLayout.bool.encode status.closable ++ (status.distributor.bytes ++ padding)), ?_⟩
  rw [accountData_eq, beforeDistributor, toLeBytes, leBytes]
  simp only [List.append_assoc, List.cons_append, List.nil_append]

/-- The subscription of the API selects the claim statuses of its distributor. -/
theorem subscribeFilters_selected (distributor : Pubkey) :
    selected (subscribeFilters H distributor) (status.accountData H) = true ↔
      status.distributor = distributor := by
  have tagged : (RpcFilterType.memcmp 0 (accountDiscriminator H "ClaimStatus")).allows
      (status.accountData H) = true :=
    (@memcmp_allows_iff [] (accountDiscriminator H "ClaimStatus") _ _ rfl).mpr rfl
  have field : (RpcFilterType.memcmp 73 distributor.bytes).allows (status.accountData H) = true ↔
      status.distributor.bytes = distributor.bytes := by
    rw [accountData_eq, ← beforeDistributor_length H status]
    exact memcmp_allows_iff (distributor.length_eq.trans status.distributor.length_eq.symm)
  simp only [selected, subscribeFilters, List.all_cons, List.all_nil, Bool.and_true, tagged,
    Bool.true_and, field]
  exact ⟨Bytes32.ext_bytes, fun same => by rw [same]⟩

/-- The filter of the two commands selects by the low byte of the claimed amount. -/
theorem closableFilters_selected :
    selected [.dataSize ClaimStatus.len, .memcmp (8 + 32 + 8 + 8 + 8) [1]]
        (status.accountData H) = true ↔
      status.unlockedAmountClaimed.toNat % 256 = 1 := by
  have sized : (RpcFilterType.dataSize ClaimStatus.len).allows (status.accountData H) = true :=
    decide_eq_true (accountData_length H status)
  obtain ⟨rest, bytes⟩ := accountData_low_byte H status
  have compared : (RpcFilterType.memcmp (8 + 32 + 8 + 8 + 8) [1]).allows
      (status.accountData H) = true ↔ [UInt8.ofNat status.unlockedAmountClaimed.toNat] = [1] := by
    rw [bytes, show 8 + 32 + 8 + 8 + 8 = (beforeClaimed H status).length from
      (beforeClaimed_length H status).symm]
    exact memcmp_allows_iff rfl
  simp only [selected, List.all_cons, List.all_nil, Bool.and_true, sized, Bool.true_and, compared]
  rw [List.singleton_inj, ← UInt8.toNat_inj, UInt8.toNat_ofNat']
  rfl

/-- The subscription of the API is right for every claim status. The filter of
`view_claim_status` and `process_close_claim_status` finds the closable ones exactly when
the low byte of the claimed amount happens to be one where the flag is set. -/
theorem filters_agree_iff (distributor : Pubkey) :
    (selected (subscribeFilters H distributor) (status.accountData H) = true ↔
      status.distributor = distributor) ∧
    (((selected viewClaimStatusFilters (status.accountData H) = true ↔ status.closable = true) ∧
        (selected processCloseClaimStatusFilters (status.accountData H) = true ↔
          status.closable = true)) ↔
      (status.unlockedAmountClaimed.toNat % 256 = 1 ↔ status.closable = true)) := by
  refine ⟨subscribeFilters_selected H status distributor, ?_⟩
  rw [viewClaimStatusFilters, processCloseClaimStatusFilters, closableFilters_selected H status,
    and_self]

end

/-- A closable status of an empty leaf is not found, and one that is not closable is found
once it has claimed 257. -/
theorem closable_filter_misses :
    let status : ClaimStatus :=
      { claimant := .filled 3, lockedAmount := 0, lockedAmountWithdrawn := 0, unlockedAmount := 0,
        unlockedAmountClaimed := 0, closable := true, distributor := .filled 1 }
    let paid : ClaimStatus :=
      { status with unlockedAmount := 257, unlockedAmountClaimed := 257, closable := false }
    let H : HashFunction := fun bytes => .filled (UInt8.ofNat bytes.length)
    selected viewClaimStatusFilters (status.accountData H) = false ∧
      selected processCloseClaimStatusFilters (paid.accountData H) = true := by
  decide

end MultiDistributor.Source
