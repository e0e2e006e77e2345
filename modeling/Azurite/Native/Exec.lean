import Azurite.Native.Copy
import Azurite.Native.Listing

/-!
# Runs of the store

Every operation of `SqlBlobMetadataStore` that can write, as one constructor of `Op` carrying the
operation's arguments. `Op.exec` runs an operation as one transaction on a store; a request
brings its own `Context`. `Reachable` is every store that some sequence of successful requests,
each with any arguments and any context, builds from the empty store. Read operations and the
operations that throw `NotImplementedinSQLError` change no row and are left out.
-/

namespace Azurite

/-- The store operations that can change a row. -/
inductive Op where
  | setServiceProperties (p : ServicePropertiesModel)
  | createContainer (container : ContainerModel)
  | deleteContainer (account container : String) (lac : Option LeaseAccessConditions)
      (mac : Option ModifiedAccessConditions)
  | setContainerMetadata (account container : String) (lastModified : Nat) (etag : String)
      (metadata : Option Metadata) (lac : Option LeaseAccessConditions)
      (mac : Option ModifiedAccessConditions)
  | setContainerACL (account container : String) (acl : SetContainerAccessPolicyOptions)
  | acquireContainerLease (account container : String) (duration : Int)
      (proposedLeaseId : Option String) (mac : Option ModifiedAccessConditions)
  | releaseContainerLease (account container leaseId : String)
      (mac : Option ModifiedAccessConditions)
  | renewContainerLease (account container leaseId : String)
      (mac : Option ModifiedAccessConditions)
  | breakContainerLease (account container : String) (breakPeriod : Option Nat)
      (mac : Option ModifiedAccessConditions)
  | changeContainerLease (account container leaseId proposedLeaseId : String)
      (mac : Option ModifiedAccessConditions)
  | createBlob (blob : BlobModel) (lac : Option LeaseAccessConditions)
      (mac : Option ModifiedAccessConditions)
  | stageBlock (block : BlockModel) (lac : Option LeaseAccessConditions)
  | commitBlockList (blob : BlobModel) (blockList : List BlockListItem)
      (lac : Option LeaseAccessConditions) (mac : Option ModifiedAccessConditions)
  | createSnapshot (account container blob : String) (lac : Option LeaseAccessConditions)
      (metadata : Option Metadata) (mac : Option ModifiedAccessConditions)
  | deleteBlob (account container blob : String) (options : BlobDeleteOptions)
  | setBlobHTTPHeaders (account container blob : String) (lac : Option LeaseAccessConditions)
      (headers : Option BlobHTTPHeaders) (mac : Option ModifiedAccessConditions)
  | setBlobMetadata (account container blob : String) (lac : Option LeaseAccessConditions)
      (metadata : Option Metadata) (mac : Option ModifiedAccessConditions)
  | acquireBlobLease (account container blob : String) (duration : Int)
      (proposedLeaseId : Option String) (mac : Option ModifiedAccessConditions)
  | releaseBlobLease (account container blob leaseId : String)
      (mac : Option ModifiedAccessConditions)
  | renewBlobLease (account container blob leaseId : String)
      (mac : Option ModifiedAccessConditions)
  | breakBlobLease (account container blob : String) (breakPeriod : Option Nat)
      (mac : Option ModifiedAccessConditions)
  | changeBlobLease (account container blob leaseId proposedLeaseId : String)
      (mac : Option ModifiedAccessConditions)
  | startCopyFromURL (source destination : BlobId) (copySource : String)
      (metadata : Option Metadata) (tier : Option String) (options : StartCopyOptions)
  | setTier (account container blob tier : String) (lac : Option LeaseAccessConditions)
  | setBlobTag (account container blob : String) (snapshot : Option String)
      (lac : Option LeaseAccessConditions) (tags : Option BlobTags)
      (mac : Option ModifiedAccessConditions)

/-- The store an operation commits, or the error that rolls it back. -/
def Op.exec (rt : Runtime) (ctx : Context) : Op → Store → Except StorageError Store
  | .setServiceProperties p, s => Prod.snd <$> Azurite.setServiceProperties p s
  | .createContainer c, s => Prod.snd <$> Azurite.createContainer c s
  | .deleteContainer a c lac mac, s => Azurite.deleteContainer rt ctx a c lac mac s
  | .setContainerMetadata a c lm e md lac mac, s =>
      Azurite.setContainerMetadata rt ctx a c lm e md lac mac s
  | .setContainerACL a c acl, s => Azurite.setContainerACL rt ctx a c acl s
  | .acquireContainerLease a c d p mac, s =>
      Prod.snd <$> Azurite.acquireContainerLease rt ctx a c d p mac s
  | .releaseContainerLease a c l mac, s =>
      Prod.snd <$> Azurite.releaseContainerLease rt ctx a c l mac s
  | .renewContainerLease a c l mac, s => Prod.snd <$> Azurite.renewContainerLease rt ctx a c l mac s
  | .breakContainerLease a c p mac, s => Prod.snd <$> Azurite.breakContainerLease rt ctx a c p mac s
  | .changeContainerLease a c l p mac, s =>
    Prod.snd <$> Azurite.changeContainerLease rt ctx a c l p mac s
  | .createBlob b lac mac, s => Azurite.createBlob rt ctx b lac mac s
  | .stageBlock b lac, s => Azurite.stageBlock rt ctx b lac s
  | .commitBlockList b l lac mac, s => Azurite.commitBlockList rt ctx b l lac mac s
  | .createSnapshot a c b lac md mac, s =>
      Prod.snd <$> Azurite.createSnapshot rt ctx a c b lac md mac s
  | .deleteBlob a c b o, s => Azurite.deleteBlob rt ctx a c b o s
  | .setBlobHTTPHeaders a c b lac h mac, s =>
      Prod.snd <$> Azurite.setBlobHTTPHeaders rt ctx a c b lac h mac s
  | .setBlobMetadata a c b lac md mac, s =>
      Prod.snd <$> Azurite.setBlobMetadata rt ctx a c b lac md mac s
  | .acquireBlobLease a c b d p mac, s =>
      Prod.snd <$> Azurite.acquireBlobLease rt ctx a c b d p mac s
  | .releaseBlobLease a c b l mac, s => Prod.snd <$> Azurite.releaseBlobLease rt ctx a c b l mac s
  | .renewBlobLease a c b l mac, s => Prod.snd <$> Azurite.renewBlobLease rt ctx a c b l mac s
  | .breakBlobLease a c b p mac, s => Prod.snd <$> Azurite.breakBlobLease rt ctx a c b p mac s
  | .changeBlobLease a c b l p mac, s => Prod.snd <$> Azurite.changeBlobLease rt ctx a c b l p mac s
  | .startCopyFromURL src dst cs md t o, s =>
      Prod.snd <$> Azurite.startCopyFromURL rt ctx src dst cs md t o s
  | .setTier a c b t lac, s => Prod.snd <$> Azurite.setTier ctx a c b t lac s
  | .setBlobTag a c b snap lac tags mac, s => Azurite.setBlobTag ctx a c b snap lac tags mac s

/-- The stores some sequence of successful requests builds from the empty store. -/
inductive Reachable (rt : Runtime) : Store → Prop where
  | empty : Reachable rt Store.empty
  | step {s s' : Store} (ctx : Context) (op : Op) :
      Reachable rt s → op.exec rt ctx s = .ok s' → Reachable rt s'

/-- An invariant that holds of the empty store and that every successful operation keeps holds
of every reachable store. -/
theorem Reachable.induction {rt : Runtime} {P : Store → Prop} (h0 : P Store.empty)
    (hstep : ∀ s s' ctx (op : Op), P s → op.exec rt ctx s = .ok s' → P s') {s : Store}
    (h : Reachable rt s) : P s := by
  induction h with
  | empty => exact h0
  | step ctx op _ hexec ih => exact hstep _ _ ctx op ih hexec

end Azurite
