import Azurite.Native.Basic
import Azurite.Native.Lease
import Azurite.Native.Conditions
import Azurite.Native.Models
import Azurite.Native.Store
import Azurite.Native.BlockOps
import Azurite.Native.BlobOps
import Azurite.Native.Copy
import Azurite.Native.Listing
import Azurite.Native.Exec
import Azurite.Spec.Tables
import Azurite.Spec.Effects
import Azurite.Spec.Invariants
import Azurite.Spec.BlockIds
import Azurite.Spec.Leases
import Azurite.Spec.Conditions
import Azurite.Spec.ReadBack
import Azurite.Spec.RoundTrip
import Azurite.Spec.Listing
import Azurite.Spec.FilterBlobs
import Azurite.Spec.ContainerListing
import Azurite.Spec.BlockBlob
import Azurite.Spec.Compose
import Azurite.Spec.Snapshots
import Azurite.Spec.Frame
import Azurite.Spec.BlockChunks
import Azurite.Native.Filter
import Azurite.Native.JavaScript
import Azurite.Spec.Transform
import Azurite.Spec.TreeShape
import Azurite.Spec.Filter
import Azurite.Spec.FilterRoundTrip
import Azurite.Spec.FilterCompile
import Azurite.Native.LinkedList
import Azurite.Spec.LinkedList
