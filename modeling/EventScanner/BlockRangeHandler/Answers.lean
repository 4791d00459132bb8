import EventScanner.LatestEventsScanner.Confirmations

set_option relaxedAutoImplicit false
set_option autoImplicit false

/-!
# Answers that make a difference

A handler asks the node for the logs of the ranges of its stream and for no others. With answers
that agree for these ranges it goes through the same states.

## Main results

* `EventScanner.BlockRangeHandler.reach_congr` — the same states are reached.
-/

namespace EventScanner

variable {n : ℕ} {τ D : Type}

/-- Answers that agree for the range of a message give the same outcome. -/
lemma fetchResult_congr
    {fetch fetch' : RangeInclusive → Except RobustProviderError (List (RpcLog D))}
    {message : BlockScannerResult}
    (h : ∀ range, message = dataItem range → fetch range = fetch' range) :
    fetchResult fetch message = fetchResult fetch' message := by
  match message with
  | .ok (.data range) =>
    unfold fetchResult
    dsimp only
    rw [h range rfl]
  | .ok (.notification _) | .error _ => rfl

namespace BlockRangeHandler

variable {handler : BlockRangeHandler n τ D} {getLogs' : Fin n → GetLogs D}
  {messages : List BlockScannerResult} {s : ServiceState n τ D}

/-- Answers that agree for the ranges of the stream make the same steps. -/
lemma act_congr
    (halike : ∀ i j r, dataItem r ∈ messages → handler.getLogs i j r = getLogs' i j r)
    (hs : handler.service.Reach (handler.serviceStart messages) s) (a : NetworkAction n) :
    handler.act s.listening s.network a =
      BlockRangeHandler.act ⟨handler.config, handler.inner, getLogs'⟩ s.listening s.network a := by
  match a with
  | .task i .pull =>
    unfold BlockRangeHandler.act Consumer.act Consumer.pull
    dsimp only
    rcases hbuffer : (s.network.consumers i).buffer with _ | ⟨message, buffer⟩
    · rfl
    · have hmessage : message ∈ (s.network.consumers i).relayed (s.taken i) := by
        unfold Consumer.relayed
        simp [hbuffer]
      have hfetch : fetchResult (handler.getLogs i (s.network.consumers i).pulled) message =
          fetchResult (getLogs' i (s.network.consumers i).pulled) message := by
        refine fetchResult_congr fun range hrange => ?_
        rcases mem_relayed hs i message hmessage with hmem | ⟨skipped, hlagged⟩
        · exact halike i _ range (hrange ▸ hmem)
        · cases hrange.symm.trans hlagged
      dsimp only
      rw [hfetch]
  | .next | .join | .abort _ | .task _ .recv | .task _ .send | .task _ (.fetched _)
  | .task _ .process | .task _ .finish => rfl

variable (handler) in
/-- A handler that can do nothing more cannot either with such answers. -/
lemma Quiet.congr
    (halike : ∀ i j r, dataItem r ∈ messages → handler.getLogs i j r = getLogs' i j r)
    (hs : handler.service.Reach (handler.serviceStart messages) s) (h : handler.Quiet s) :
    BlockRangeHandler.Quiet ⟨handler.config, handler.inner, getLogs'⟩ s :=
  fun a => (act_congr halike hs a).symm.trans (h a)

end BlockRangeHandler

end EventScanner
