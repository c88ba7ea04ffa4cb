import DufsRam.Admission.Publish
import DufsRam.Client.Agreement
import DufsRam.Client.Buffer
import DufsRam.Client.Guarantees
import DufsRam.Client.Publishing
import DufsRam.Client.Transport
import DufsRam.Delete.Guarantees
import DufsRam.DiskSpace.Floor
import DufsRam.Download.Body
import DufsRam.Listing.Authority
import DufsRam.Listing.Order
import DufsRam.Logging.Access
import DufsRam.Logging.Body
import DufsRam.PathCoordinator.Dependencies
import DufsRam.PathCoordinator.Progress
import DufsRam.Purge.Conservation
import DufsRam.Purge.Slices
import DufsRam.RootedFs.Permissions
import DufsRam.Router.Guarantees
import DufsRam.StateStore.Clock
import DufsRam.StateStore.OperationRun
import DufsRam.StateStore.Recovered
import DufsRam.StateStore.Reservations
import DufsRam.Upload.Confirmation
import DufsRam.Upload.Metadata
import DufsRam.Upload.Offsets
import DufsRam.Upload.Publication
import DufsRam.Upload.Reception
