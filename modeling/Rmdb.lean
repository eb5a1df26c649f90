import Rmdb.Defs
import Rmdb.Record.Bitmap
import Rmdb.Record.FileHandle
import Rmdb.Record.Calls
import Rmdb.Record.FreeList
import Rmdb.Record.Refinement
import Rmdb.Record.Occupancy
import Rmdb.Record.Errors
import Rmdb.Record.Scan
import Rmdb.Record.Interleaving
import Rmdb.Record.Pins
import Rmdb.Recovery.LogFormat
import Rmdb.Recovery.Log
import Rmdb.Recovery.Latch
import Rmdb.Recovery.LogReader
import Rmdb.Recovery.Threads
import Rmdb.Transaction.Manager
import Rmdb.Transaction.Lifecycle
import Rmdb.Transaction.CommitFailure
import Rmdb.Transaction.LogChain
import Rmdb.Transaction.Durability
import Rmdb.Transaction.Analysis
import Rmdb.Transaction.LogBuffer
import Rmdb.Execution.Predicate
import Rmdb.Execution.SeqScan
import Rmdb.Execution.Update
import Rmdb.Execution.UpdateRun
import Rmdb.Execution.UpdateIndex
import Rmdb.Transaction.Rollback
import Rmdb.Execution.ScanOutput
import Rmdb.Analyze.Cast
import Rmdb.Analyze.Analyzer
import Rmdb.Analyze.UpdateAgreement
import Rmdb.Analyze.ScanAgreement
import Rmdb.Analyze.SelectScan
import Rmdb.Analyze.UpdateWhere
import Rmdb.Analyze.Acceptance
