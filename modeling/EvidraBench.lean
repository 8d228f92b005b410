import EvidraBench.Agent.Interactive
import EvidraBench.Agent.Loop
import EvidraBench.Agent.Shell
import EvidraBench.Agent.WriteFile
import EvidraBench.Audit.Arrival
import EvidraBench.Audit.Bodies
import EvidraBench.Audit.Channels
import EvidraBench.Audit.FileSource
import EvidraBench.Audit.LineAccount
import EvidraBench.Audit.PatchSound
import EvidraBench.Auth.Session
import EvidraBench.Autopsy.Agreement
import EvidraBench.Autopsy.Masking
import EvidraBench.Autopsy.Repeated
import EvidraBench.Autopsy.Spelling
import EvidraBench.Bench.Segments
import EvidraBench.BenchCli.LeaseRecovery
import EvidraBench.Benchsvc.Counters
import EvidraBench.Benchsvc.Finished
import EvidraBench.Benchsvc.Ingest
import EvidraBench.Benchsvc.Isolation
import EvidraBench.Benchsvc.Lifecycle
import EvidraBench.Benchsvc.Report
import EvidraBench.Benchsvc.Restart
import EvidraBench.Benchsvc.ReviewRoutes
import EvidraBench.Benchsvc.Reviews
import EvidraBench.Benchsvc.Runs
import EvidraBench.Benchsvc.Subscribers
import EvidraBench.Environment.Declared
import EvidraBench.Evaluation.Service
import EvidraBench.Evaluation.Subresource
import EvidraBench.Evidrawire.Tamper
import EvidraBench.Gostd.Struct
import EvidraBench.Gostd.Words
import EvidraBench.Gostd.Write
import EvidraBench.Harness.Chaos
import EvidraBench.Harness.ChaosTrigger
import EvidraBench.Harness.EvaluationResult
import EvidraBench.Harness.Snapshots
import EvidraBench.Harness.Stages
import EvidraBench.Lib.Parties
import EvidraBench.Orchestrator.Accounting
import EvidraBench.Orchestrator.Recreation
import EvidraBench.Orchestrator.Slots
import EvidraBench.Runreview.Review
import EvidraBench.Scenariopatch.Preview
import EvidraBench.Snapshot.Redact
import EvidraBench.Snapshot.Text
import EvidraBench.Suite.Digest
import EvidraBench.Verifier.Protocol
import EvidraBench.Workspace.Namespace
