import EventScanner.BlockRangeScanner.LiveRun

set_option relaxedAutoImplicit false
set_option autoImplicit false

/-!
# Reading the log of a run

What the log of a run says about the moment it was written: the header that is being
processed, whether a check belongs to the batch loop or to the main loop, which blocks the
consumer has been sent, and which block was checked last.

## Main definitions

* `EventScanner.lastAction`, `EventScanner.lastHeader` — the last event but provider calls, and
  the header being processed.
* `EventScanner.BatchCheck`, `EventScanner.checkedHeader` — which loop a check belongs to.
* `EventScanner.Emitted` — a block lies in a range that was sent.
* `EventScanner.lastChecked`, `EventScanner.lastVouched` — the block that was checked last, and
  the block that this check left as the tip of what is streamed.
-/

namespace EventScanner

open HashChain

variable {Hash : Type}

/-- The last event that is not a provider call. -/
def lastAction (log : Log Hash) : Option (Event Hash) := log.find? fun e => !e.isRequest

/-- Provider calls do not change the last action. -/
@[simp] lemma lastAction_append {reqs : Log Hash} (h : ∀ e ∈ reqs, e.isRequest = true)
    (log : Log Hash) : lastAction (reqs ++ log) = lastAction log := by
  unfold lastAction
  rw [List.find?_append, List.find?_eq_none.mpr (fun e he => by simp [h e he]), Option.none_or]

@[simp] lemma lastAction_received (item : Except RobustProviderError ℕ) (log : Log Hash) :
    lastAction (.received item :: log) = some (.received item) := rfl

/-- Provider calls behind a log that does not end with one are what `dropWhile` takes off. -/
lemma dropWhile_isRequest_append {reqs log : Log Hash} (h : ∀ e ∈ reqs, e.isRequest = true)
    (hlog : log.dropWhile Event.isRequest = log) :
    (reqs ++ log).dropWhile Event.isRequest = log := by
  rw [List.dropWhile_append_of_pos h, hlog]

/-- Provider calls do not bear on a condition that says nothing about them. -/
lemma alwaysSince_requests {φ : Event Hash → Log Hash → Prop} {start reqs log : Log Hash}
    (hφ : ∀ r past, φ (.request r) past) (h : ∀ e ∈ reqs, e.isRequest = true)
    (hbegun : start <:+ log) (hlog : EventLog.AlwaysSince start φ log) :
    start <:+ reqs ++ log ∧ EventLog.AlwaysSince start φ (reqs ++ log) := by
  refine ⟨hbegun.trans (List.suffix_append _ _),
    (EventLog.alwaysSince_append hbegun fun e he past => ?_).mpr hlog⟩
  cases e with
  | request r => exact hφ r past
  | received | checked | sent => exact absurd (h _ he) (by simp)

/-- The header that is being processed. -/
def lastHeader : Log Hash → Option ℕ
  | [] => none
  | .received (.ok n) :: _ => some n
  | _ :: log => lastHeader log

@[simp] lemma lastHeader_received (n : ℕ) (log : Log Hash) :
    lastHeader (.received (.ok n) :: log) = some n := rfl

@[simp] lemma lastHeader_request (r : Request Hash) (log : Log Hash) :
    lastHeader (.request r :: log) = lastHeader log := rfl

@[simp] lemma lastHeader_checked (b : Block Hash) (a : Option (Block Hash)) (log : Log Hash) :
    lastHeader (.checked b a :: log) = lastHeader log := rfl

@[simp] lemma lastHeader_sent (item : BlockScannerResult) (log : Log Hash) :
    lastHeader (.sent item :: log) = lastHeader log := rfl

/-- Provider calls do not change the header. -/
lemma lastHeader_append {reqs : Log Hash} (h : ∀ e ∈ reqs, e.isRequest = true) (log : Log Hash) :
    lastHeader (reqs ++ log) = lastHeader log := by
  induction reqs with
  | nil => rfl
  | cons e reqs ih =>
    have he := h e (by simp)
    cases e <;> simp_all

/-- A check at the end of this log belongs to the batch loop: a range was just sent. -/
def BatchCheck (log : Log Hash) : Prop := ∃ r, lastAction log = some (.sent (dataItem r))

instance (log : Log Hash) : Decidable (BatchCheck log) :=
  match h : lastAction log with
  | some (.sent (.ok (.data r))) => .isTrue ⟨r, h⟩
  | none | some (.sent (.ok (.notification _))) | some (.sent (.error _)) | some (.request _)
  | some (.received _) | some (.checked _ _) => .isFalse (by simp [BatchCheck, h])

/-- Provider calls do not change which loop a check belongs to. -/
lemma batchCheck_append {reqs : Log Hash} (h : ∀ e ∈ reqs, e.isRequest = true) (r : RangeInclusive)
    (log : Log Hash) : BatchCheck (reqs ++ .sent (dataItem r) :: log) :=
  ⟨r, lastAction_append h _⟩

/-- A check at the end of this log belongs to the main loop. -/
lemma not_batchCheck_append {reqs : Log Hash} (h : ∀ e ∈ reqs, e.isRequest = true) (n : ℕ)
    (log : Log Hash) : ¬BatchCheck (reqs ++ .received (.ok n) :: log) := by
  rintro ⟨r, hr⟩
  rw [lastAction_append h, lastAction_received] at hr
  cases hr

/-- The header for which a check at the end of this log is made, when the check belongs to the
main loop: the header was just received. -/
def checkedHeader (log : Log Hash) : Option ℕ :=
  match lastAction log with
  | some (.received (.ok n)) => some n
  | _ => none

/-- Provider calls do not change the header a check is made for. -/
lemma checkedHeader_append {reqs : Log Hash} (h : ∀ e ∈ reqs, e.isRequest = true) (n : ℕ)
    (log : Log Hash) : checkedHeader (reqs ++ .received (.ok n) :: log) = some n := by
  unfold checkedHeader
  rw [lastAction_append h, lastAction_received]

/-- The ranges that were sent, newest first. -/
def sentRanges : Log Hash → List RangeInclusive
  | [] => []
  | .sent (.ok (.data r)) :: log => r :: sentRanges log
  | _ :: log => sentRanges log

lemma sentRanges_append (new log : Log Hash) :
    sentRanges (new ++ log) = sentRanges new ++ sentRanges log := by
  induction new using sentRanges.induct <;> simp_all [sentRanges]

/-- Silent events send no range. -/
lemma sentRanges_of_silent {new : Log Hash} (hnew : SilentLog new) (log : Log Hash) :
    sentRanges (new ++ log) = sentRanges log := by
  induction new with
  | nil => rfl
  | cons e new ih =>
    obtain ⟨he, hnew⟩ := silentLog_cons.mp hnew
    rw [← ih hnew]
    match e with
    | .sent (.ok (.data _)) => exact absurd he id
    | .sent (.ok (.notification _)) | .sent (.error _) | .request _ | .received _
    | .checked _ _ => rfl

/-- The block is in a range that was sent. -/
def Emitted (log : Log Hash) (n : ℕ) : Prop := ∃ r ∈ sentRanges log, r.Contains n

instance (log : Log Hash) (n : ℕ) : Decidable (Emitted log n) :=
  inferInstanceAs (Decidable (∃ r ∈ sentRanges log, r.Contains n))

/-- What was sent stays sent. -/
lemma Emitted.append {log : Log Hash} {n : ℕ} (h : Emitted log n) (new : Log Hash) :
    Emitted (new ++ log) n := by
  obtain ⟨r, hr, hn⟩ := h
  refine ⟨r, ?_, hn⟩
  rw [sentRanges_append]
  exact List.mem_append_right _ hr

lemma Emitted.cons {log : Log Hash} {n : ℕ} (h : Emitted log n) (e : Event Hash) :
    Emitted (e :: log) n := h.append [e]

/-- The block that was checked last. -/
def lastChecked : Log Hash → Option (Block Hash)
  | [] => none
  | .checked b _ :: _ => some b
  | _ :: log => lastChecked log

/-- The block the last check left as the tip of what is streamed: the checked block, or the
common ancestor. -/
def lastVouched : Log Hash → Option (Block Hash)
  | [] => none
  | .checked b none :: _ => some b
  | .checked _ (some a) :: _ => some a
  | _ :: log => lastVouched log

@[simp] lemma lastVouched_request (r : Request Hash) (log : Log Hash) :
    lastVouched (.request r :: log) = lastVouched log := rfl

@[simp] lemma lastVouched_received (item : Except RobustProviderError ℕ) (log : Log Hash) :
    lastVouched (.received item :: log) = lastVouched log := rfl

@[simp] lemma lastVouched_sent (item : BlockScannerResult) (log : Log Hash) :
    lastVouched (.sent item :: log) = lastVouched log := rfl

end EventScanner
