/-
What happens during a run, as the activity log records it.
-/
import Codemod.Log.Entry

namespace Codemod

def version : String := "0.1.0"

inductive Event where
  | runStarted (root configHash : String) (rules : Nat) (dryRun : Bool)
  | fileDeleted (path : String) (dryRun : Bool)
  | fileRewritten (path : String) (hits : HitCounts) (before after : String) (dryRun : Bool)
  | fileFailed (path code message : String)
  | ruleFailed (ruleId : String) (path : Option String) (message : String)
  | dirSkipped (path reason : String)
  | runCompleted (scanned modified errors duration : Nat) (dryRun : Bool)
  deriving DecidableEq, Repr

namespace Event

/-- The entry for an event at a time. -/
def entry (time : String) : Event → LogEntry
  | runStarted root configHash rules dryRun =>
    { time, kind := .runStart, severity := .info, path := root, dryRun,
      details := s!"version={version} config_hash={configHash} rules={rules}" }
  | fileDeleted path dryRun =>
    { time, kind := .fileDelete, severity := .info, path, dryRun, ok := true }
  | fileRewritten path hits before after dryRun =>
    { time, kind := .fileRewrite, severity := .info, path, hits, before, after, dryRun, ok := true }
  | fileFailed path code message =>
    { time, kind := .fileFail, severity := .warning, path, ok := false, errorCode := code,
      errorMessage := message }
  | ruleFailed ruleId path message =>
    { time, kind := .ruleFail, severity := .warning, ruleId, path, ok := false,
      errorCode := "SRW-2201", errorMessage := message }
  | dirSkipped path reason =>
    { time, kind := .dirSkip, severity := .warning, path, details := reason }
  | runCompleted scanned modified errors duration dryRun =>
    { time, kind := .runComplete, severity := .info, scanned, modified, duration, dryRun,
      ok := errors == 0
      details := if errors > 0 then some s!"errors={errors}" else none }

end Event

end Codemod
