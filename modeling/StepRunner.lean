import StepRunner.Codec.Config
import StepRunner.Codec.Storage
import StepRunner.Main
import StepRunner.Proofs.Sync.Collision
import StepRunner.Proofs.Sync.Confinement
import StepRunner.Proofs.Sync.Failure
import StepRunner.Proofs.Sync.Mirror
import StepRunner.Proofs.Sync.Order
import StepRunner.Proofs.Storage.Addresses
import StepRunner.Storage.Memory
import StepRunner.Proofs.Storage.Joining
import StepRunner.Proofs.Text.Decimal
import StepRunner.Proofs.Storage.Listing
import StepRunner.Proofs.Storage.Listed
import StepRunner.Proofs.Storage.ObjectLines
import StepRunner.Proofs.Storage.History
import StepRunner.Proofs.Step.PlaybackDirs
import StepRunner.Proofs.Step.Pruning
import StepRunner.Proofs.Step.Preparation
import StepRunner.Proofs.Step.DownloadSkps
import StepRunner.Proofs.Step.Cleaning
import StepRunner.Proofs.Step.Lifecycle
import StepRunner.Proofs.CommandLine.ExitCode
import StepRunner.Proofs.Codec.RoundTrip
import StepRunner.Proofs.Step.Bench
import StepRunner.Proofs.Sync.LocalPath
import StepRunner.Proofs.Process.NotFound
