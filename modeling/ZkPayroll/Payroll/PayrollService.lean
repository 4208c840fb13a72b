import Mathlib.Data.List.Pairwise
import ZkPayroll.Batch.BatchPayloadBuilder
import ZkPayroll.Payroll.BatchResumeToken
import ZkPayroll.Payroll.SubmissionLaw

/-!
# Payments of a payroll

`processPayment` and `submitBatchPaymentsSafely` of `payroll.ts`. A batch is
paid item by item, and retried as a whole, so an item paid by an attempt that
then fails is paid again by the next one: `paid_at_most_once_iff` says when no
entry is paid twice.
-/

namespace ZkPayroll.Payroll

open Framework ZkPayroll.Core Batch

/-! ## One payment -/

/-- A call of `processPayment`: the item at `position` of a batch, in an
attempt. -/
structure PaymentCall where
  batchIndex : Nat
  attempt : Nat
  position : Nat
  deriving DecidableEq

/-- What the service reads from outside. -/
structure PaymentEnvironment where
  /-- What the idempotency registry replays for a payment with a key. -/
  replay : PaymentCall → Option (Except SdkError PaymentResult)
  validatePaymentParams : PaymentParams → Except SdkError Unit
  /-- The message of `validatePaymentDestination`, if it refuses. -/
  destinationRefused : PaymentCall → PaymentParams → Option String
  assertValidPayrollWitness : PaymentParams → Except SdkError Unit
  /-- The public signals of the proof. -/
  generateProof : PaymentCall → Except SdkError (List String)
  /-- The result of the contract call `private_pay`, in hexadecimal. -/
  privatePay : PaymentCall → Except SdkError String
  /-- What the submitter of the batches reads. -/
  aborted : AbortRead → Bool
  sleep : (batchIndex attempt : Nat) → Bool
  now : (batchIndex : Nat) → Int

/-- A submission of `private_pay`, and whether it succeeded. -/
structure Submission where
  call : PaymentCall
  succeeded : Bool
  deriving DecidableEq

def payrollError (message code : String) : SdkError where
  kind := .zkPayroll
  name := "PayrollError"
  message := message
  code := code

/-- What a failed proof generation throws: a `PayrollError` as it is, and
anything else wrapped in one. -/
def proofFailure (error : SdkError) : SdkError :=
  if error.kind = .zkPayroll ∧ error.name = "PayrollError" then error
  else payrollError s!"Proof generation failed: {error.message}" "2001"

section Payments

variable (g : PaymentEnvironment)

def processPaymentInternal (c : PaymentCall) (params : PaymentParams) :
    List Submission × Except SdkError PaymentResult :=
  match g.validatePaymentParams params with
  | .error e => ([], .error e)
  | .ok () =>
    match g.destinationRefused c params with
    | some message => ([], .error (payrollError message "2002"))
    | none =>
      match g.assertValidPayrollWitness params with
      | .error e => ([], .error e)
      | .ok () =>
        match g.generateProof c with
        | .error e => ([], .error (proofFailure e))
        | .ok publicSignals =>
          match g.privatePay c with
          | .error e => ([⟨c, false⟩], .error e)
          | .ok txHash => ([⟨c, true⟩], .ok { txHash, publicSignals })

/-- `params.idempotencyKey?.trim()`, where it is not empty. -/
def explicitKey (params : PaymentParams) : Option String :=
  match params.idempotencyKey with
  | some key => if isBlank key then none else some (trim key)
  | none => none

def processPayment (c : PaymentCall) (params : PaymentParams) :
    List Submission × Except SdkError PaymentResult :=
  match explicitKey params with
  | none => processPaymentInternal g c params
  | some _ =>
    match g.replay c with
    | some outcome => ([], outcome)
    | none => processPaymentInternal g c params

/-- The handler of `submitBatchPaymentsSafely` on the items of a batch from
`position` on. -/
def payItems (batchIndex attempt : Nat) : (position : Nat) → List PaymentParams →
    List Submission × Except SdkError (List PaymentResult)
  | _, [] => ([], .ok [])
  | position, item :: items =>
    let first := processPayment g ⟨batchIndex, attempt, position⟩ item
    match first.2 with
    | .error e => (first.1, .error e)
    | .ok res =>
      let rest := payItems batchIndex attempt (position + 1) items
      (first.1 ++ rest.1,
        match rest.2 with
        | .ok results => .ok (res :: results)
        | .error e => .error e)

variable (entries : List PaymentParams) (options : SafeBatchSubmissionOptions)

/-- The handler on batch `batchIndex`. -/
def payBatch (batchIndex attempt : Nat) : List Submission × Except SdkError (List PaymentResult) :=
  payItems g batchIndex attempt 0 (planBatch entries options batchIndex).items

/-- What the submitter of the batches reads: its handler pays a batch. -/
def PaymentEnvironment.environment : Environment PaymentResult where
  submitBatchFn batchIndex attempt := (payBatch g entries options batchIndex attempt).2
  aborted := g.aborted
  sleep := g.sleep
  now := g.now

/-- A run of the service: that of the submitter, and the submissions of
`private_pay` in its attempts. -/
structure ServiceRun where
  run : Run PaymentResult
  submissions : List Submission

def submitBatchPaymentsSafely (host : Host) : ServiceRun :=
  match assertValidBatchPayload entries with
  | .error e => { run := { effects := [], outcome := .error e }, submissions := [] }
  | .ok payload =>
    let run := submitSequentialPayrollBatches host payload.entries options
      (g.environment payload.entries options)
    { run
      submissions := (calls run.effects).flatMap fun c => (payBatch g payload.entries options c.1 c.2).1 }

/-- The index of the entry that a call pays. -/
def PaymentCall.entryIndex (c : PaymentCall) : Nat :=
  c.batchIndex * options.effectiveBatchSize.toNat + c.position

/-- The entries paid by some submissions, once for each successful one. -/
def paidEntries (submissions : List Submission) : List Nat :=
  (submissions.filter (·.succeeded)).map fun s => s.call.entryIndex options

end Payments

/-! ## The payments of an attempt -/

variable {g : PaymentEnvironment} {entries : List PaymentParams} {options : SafeBatchSubmissionOptions}

/-- A payment fails before it is submitted, or by its submission, or succeeds
by it. -/
theorem processPaymentInternal_cases (c : PaymentCall) (params : PaymentParams) :
    (∃ e, processPaymentInternal g c params = ([], .error e)) ∨
      (∃ e, processPaymentInternal g c params = ([⟨c, false⟩], .error e)) ∨
      ∃ res, processPaymentInternal g c params = ([⟨c, true⟩], .ok res) := by
  rw [processPaymentInternal]
  split
  · exact .inl ⟨_, rfl⟩
  split
  · exact .inl ⟨_, rfl⟩
  split
  · exact .inl ⟨_, rfl⟩
  split
  · exact .inl ⟨_, rfl⟩
  split
  · exact .inr (.inl ⟨_, rfl⟩)
  · exact .inr (.inr ⟨_, rfl⟩)

/-- Without a key, a payment succeeds if and only if it is submitted with
success. -/
theorem paid_processPayment {params : PaymentParams} (h : explicitKey params = none) (c : PaymentCall) :
    ((processPayment g c params).1.filter (·.succeeded)).map (·.call) =
      if (processPayment g c params).2.isOk then [c] else [] := by
  rw [processPayment, h]
  rcases processPaymentInternal_cases (g := g) c params with ⟨e, he⟩ | ⟨e, he⟩ | ⟨res, hres⟩
  · rw [he]; rfl
  · rw [he]; rfl
  · rw [hres]; rfl

/-- Whether attempt `k` pays the first item of batch `i`. -/
def FirstPaid (g : PaymentEnvironment) (entries : List PaymentParams) (options : SafeBatchSubmissionOptions)
    (i k : Nat) : Prop :=
  ∃ item ∈ (planBatch entries options i).items.head?, (processPayment g ⟨i, k, 0⟩ item).2.isOk = true

/-- An attempt pays its items in order, up to the first that fails. -/
theorem paid_payItems (i k : Nat) :
    ∀ (pos : Nat) (items : List PaymentParams), (∀ p ∈ items, explicitKey p = none) →
      ∃ n ≤ items.length,
        (((payItems g i k pos items).1.filter (·.succeeded)).map (·.call)) =
            (List.range' pos n).map (fun p => ⟨i, k, p⟩) ∧
          (0 < n ↔ ∃ item ∈ items.head?, (processPayment g ⟨i, k, pos⟩ item).2.isOk = true)
  | pos, [], _ => ⟨0, le_rfl, rfl, by simp⟩
  | pos, item :: items, h => by
    have hitem := paid_processPayment (g := g) (h item List.mem_cons_self) ⟨i, k, pos⟩
    rw [payItems]
    simp only [List.head?_cons, Option.mem_def, Option.some.injEq, exists_eq_left']
    split
    · rename_i e he
      rw [he] at hitem ⊢
      exact ⟨0, Nat.zero_le _, by simpa [Except.isOk, Except.toBool] using hitem,
        by simp [Except.isOk, Except.toBool]⟩
    · rename_i res hres
      obtain ⟨n, hn, hcalls, -⟩ := paid_payItems i k (pos + 1) items fun p hp => h p (List.mem_cons_of_mem _ hp)
      rw [hres] at hitem ⊢
      refine ⟨n + 1, by simpa using hn, ?_, by simp [Except.isOk, Except.toBool]⟩
      rw [List.filter_append, List.map_append, hitem, hcalls, List.range'_succ]
      rfl

section

variable (hkeys : ∀ p ∈ entries, p.idempotencyKey = none)
include hkeys

/-- The entries that an attempt pays are the first ones of its batch. -/
theorem paid_payBatch (i k : Nat) : ∃ n ≤ options.effectiveBatchSize.toNat,
      paidEntries options (payBatch g entries options i k).1 =
          (List.range' 0 n).map (i * options.effectiveBatchSize.toNat + ·) ∧
        (0 < n ↔ FirstPaid g entries options i k) := by
  have hitems : ∀ p ∈ (planBatch entries options i).items, explicitKey p = none := by
    intro p hp
    rw [explicitKey, hkeys p (List.mem_of_mem_drop (List.mem_of_mem_take hp))]
  obtain ⟨n, hn, hpaid, hfirst⟩ := paid_payItems (g := g) i k 0 _ hitems
  refine ⟨n, hn.trans (List.length_take_le _ _), ?_, hfirst⟩
  have h := congrArg (List.map (PaymentCall.entryIndex options)) hpaid
  rw [List.map_map, List.map_map] at h
  exact h

/-- They lie in the batch, and the first payment of the attempt went through. -/
theorem of_mem_paid_payBatch {i k e : Nat}
    (he : e ∈ paidEntries options (payBatch g entries options i k).1) :
    i * options.effectiveBatchSize.toNat ≤ e ∧ e < (i + 1) * options.effectiveBatchSize.toNat ∧
      FirstPaid g entries options i k := by
  obtain ⟨n, hn, heq, hfirst⟩ := paid_payBatch (g := g) hkeys i k
  rw [heq] at he
  obtain ⟨p, hp, rfl⟩ := List.mem_map.mp he
  rw [List.mem_range'_1] at hp
  exact ⟨by omega, by rw [Nat.succ_mul]; omega, hfirst.mp (by omega)⟩

theorem nodup_paid_payBatch (i k : Nat) :
    (paidEntries options (payBatch g entries options i k).1).Nodup := by
  obtain ⟨n, -, heq, -⟩ : ∃ n ≤ options.effectiveBatchSize.toNat, _ ∧ _ := paid_payBatch (g := g) hkeys i k
  rw [heq]
  exact List.Nodup.map (fun _ _ h => Nat.add_left_cancel h) List.nodup_range'

theorem first_mem_paid_payBatch {i k : Nat} (h : FirstPaid g entries options i k) :
    i * options.effectiveBatchSize.toNat ∈ paidEntries options (payBatch g entries options i k).1 := by
  obtain ⟨n, -, heq, hfirst⟩ : ∃ n ≤ options.effectiveBatchSize.toNat, _ ∧ _ := paid_payBatch (g := g) hkeys i k
  have hpos : 0 < n := hfirst.mpr h
  rw [heq]
  exact List.mem_map.mpr ⟨0, List.mem_range'_1.mpr ⟨le_rfl, by omega⟩, rfl⟩

end

/-! ## The payments of a run -/

/-- The service comes to batch `i`: the payload is valid, and the loop of the
submitter comes to the batch. -/
def ServiceComesTo (g : PaymentEnvironment) (entries : List PaymentParams) (options : SafeBatchSubmissionOptions)
    (host : Host) (i : Nat) : Prop :=
  (assertValidBatchPayload entries).isOk = true ∧
    ∃ s m, Starts host entries options s m ∧ ComesTo options (g.environment entries options) s m i

/-- The attempts of a service. -/
theorem mem_calls_service {host : Host} {i k : Nat} :
    (i, k) ∈ calls (submitBatchPaymentsSafely g entries options host).run.effects ↔
      ServiceComesTo g entries options host i ∧ Attempted options (g.environment entries options) i k := by
  rw [submitBatchPaymentsSafely, ServiceComesTo]
  split
  · rename_i e he
    rw [he]
    exact iff_of_false List.not_mem_nil fun h => by cases h.1.1
  · rename_i payload hpayload
    rw [hpayload, assertValidBatchPayload_entries hpayload]
    simp only [and_iff_right (show (Except.ok (ε := SdkError) payload).isOk = true from rfl)]
    exact mem_calls_run

/-- No entry is paid twice if and only if, in no batch that the service comes to,
the first payment goes through in an attempt that is made and in an earlier one. -/
theorem paid_at_most_once_iff (g : PaymentEnvironment) (entries : List PaymentParams)
    (options : SafeBatchSubmissionOptions) (host : Host)
    (hkeys : ∀ p ∈ entries, p.idempotencyKey = none) :
    (paidEntries options (submitBatchPaymentsSafely g entries options host).submissions).Nodup ↔
      ∀ i j k, ServiceComesTo g entries options host i → Attempted options (g.environment entries options) i k →
        1 ≤ j → j < k → ¬ (FirstPaid g entries options i j ∧ FirstPaid g entries options i k) := by
  have hmem : ∀ i k, (i, k) ∈ calls (submitBatchPaymentsSafely g entries options host).run.effects ↔ _ :=
    fun i k => mem_calls_service
  rw [submitBatchPaymentsSafely] at hmem ⊢
  split at hmem
  · refine iff_of_true List.Pairwise.nil fun i j k hi hk => ?_
    exact absurd ((hmem i k).mpr ⟨hi, hk⟩) List.not_mem_nil
  rename_i payload hpayload
  rw [assertValidBatchPayload_entries hpayload] at hmem ⊢
  simp only [] at hmem ⊢
  generalize hcalls : calls (submitSequentialPayrollBatches host entries options
    (g.environment entries options)).effects = cs at hmem
  have horder : cs.Pairwise CallBefore := hcalls ▸ calls_pairwise
  have hpaid : paidEntries options (cs.flatMap fun c => (payBatch g entries options c.1 c.2).1) =
      cs.flatMap fun c => paidEntries options (payBatch g entries options c.1 c.2).1 := by
    simp only [paidEntries, List.filter_flatMap, List.map_flatMap]
  rw [hpaid, List.nodup_flatMap]
  constructor
  · rintro ⟨-, hdisj⟩ i j k hi hk hj hjk ⟨hfj, hfk⟩
    have hsymm : Std.Symm (Function.onFun List.Disjoint fun c : Nat × Nat =>
        paidEntries options (payBatch g entries options c.1 c.2).1) := ⟨fun _ _ h => List.Disjoint.symm h⟩
    exact hdisj.forall ((hmem i j).mpr ⟨hi, hk.earlier hj hjk⟩) ((hmem i k).mpr ⟨hi, hk⟩)
      (by simpa using hjk.ne) (first_mem_paid_payBatch hkeys hfj)
      (first_mem_paid_payBatch hkeys hfk)
  · intro h
    refine ⟨fun c _ => nodup_paid_payBatch hkeys c.1 c.2, horder.imp_of_mem fun {c d} hc hd hcd => ?_⟩
    intro e hec hed
    obtain ⟨hc₁, hc₂, hfc⟩ := of_mem_paid_payBatch hkeys hec
    obtain ⟨hd₁, hd₂, hfd⟩ := of_mem_paid_payBatch hkeys hed
    rcases hcd with hlt | ⟨heq, hlt⟩
    · have hle : (c.1 + 1) * options.effectiveBatchSize.toNat ≤ d.1 * options.effectiveBatchSize.toNat :=
        Nat.mul_le_mul_right _ hlt
      omega
    · obtain ⟨i, j⟩ := c
      obtain ⟨i', k⟩ := d
      obtain rfl : i = i' := heq
      obtain ⟨hi, hk⟩ := (hmem i k).mp hd
      exact h i j k hi hk ((hmem i j).mp hc).2.1.1 hlt ⟨hfc, hfd⟩

/-- The second payment of the batch fails in the first attempt, with an error
that is worth a retry. -/
def bobUnreachable : PaymentEnvironment where
  replay _ := none
  validatePaymentParams _ := .ok ()
  destinationRefused _ _ := none
  assertValidPayrollWitness _ := .ok ()
  generateProof _ := .ok []
  privatePay c :=
    if c.attempt = 1 ∧ c.position = 1 then .error (networkError "Connection reset") else .ok "00"
  aborted _ := false
  sleep _ _ := true
  now _ := 0

/-- The retry of the batch pays the first employee a second time. -/
theorem alice_paid_twice :
    paidEntries {} (submitBatchPaymentsSafely bobUnreachable aliceBob {} plainHost).submissions = [0, 0, 1] ∧
      ¬ (paidEntries {} (submitBatchPaymentsSafely bobUnreachable aliceBob {} plainHost).submissions).Nodup := by
  decide +kernel

/-- Both employees are reached: one attempt, and each is paid once. -/
def allReachable : PaymentEnvironment := { bobUnreachable with privatePay := fun _ => .ok "00" }

theorem aliceBob_paid_once :
    (paidEntries {} (submitBatchPaymentsSafely allReachable aliceBob {} plainHost).submissions).Nodup := by
  refine (paid_at_most_once_iff allReachable aliceBob {} plainHost (by decide)).mpr fun i j k hi hk hj hjk => ?_
  -- there is one batch, and its first attempt succeeds
  obtain ⟨-, s, m, hstarts, hcomes⟩ := hi
  have htotal : totalBatches aliceBob {} = 1 := by decide
  obtain rfl : i = 0 := by
    have hleft := hstarts.left
    have hlt := hcomes.inLoop.2
    omega
  obtain ⟨-, err, herr, -⟩ := hk.1.2.2 1 le_rfl (by omega)
  have hok : ((allReachable.environment aliceBob {}).submitBatchFn 0 1).isOk = true := by decide +kernel
  rw [herr] at hok
  cases hok

end ZkPayroll.Payroll
