import TTasks.Interleave.Prog
import TTasks.Interleave.Machine
import TTasks.Interleave.Threads
import TTasks.Executor
import TTasks.Sequence
import TTasks.Race
import TTasks.Graph
import TTasks.Scheduler
import TTasks.Reference
import TTasks.Laws.Executor.Run
import TTasks.Laws.Executor.Attempt
import TTasks.Laws.Executor.Sequence
import TTasks.Laws.Race.Agreement
import TTasks.Laws.Graph.Validate
import TTasks.Laws.Graph.Run
import TTasks.Laws.Graph.Build
import TTasks.Laws.Scheduler.Outcome
import TTasks.Laws.Scheduler.Stuck
import TTasks.Laws.Scheduler.Retry
import TTasks.Laws.Scheduler.Once
import TTasks.Laws.Scheduler.Order
import TTasks.Laws.Events.Bus
import TTasks.Workflow
import TTasks.Laws.Workflow.Blockers
import TTasks.Laws.Sqlite.History
import TTasks.Laws.Sqlite.Clients
import TTasks.Laws.Autosave.Saved
import TTasks.Laws.Sqlite.Careful
import TTasks.Laws.Sqlite.Openers
import TTasks.Laws.Process.Group
import TTasks.Laws.Copilot.Poll
import TTasks.Laws.Submission.Shutdown
import TTasks.Laws.Retrying.Outcome
import TTasks.Laws.Sqlite.Backends
import TTasks.Laws.Sqlite.Live
import TTasks.Laws.Observers.Unseen
import TTasks.Laws.Sqlite.Chronology
import TTasks.Laws.Scheduler.Workers
import TTasks.Laws.Scheduler.Report
import TTasks.Laws.Scheduler.Cause
import TTasks.Laws.Graph.Refine
import TTasks.Laws.AgentSession.Loop
import TTasks.Laws.Command.Output
import TTasks.Laws.Futures.Ended
