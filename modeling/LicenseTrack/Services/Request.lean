import LicenseTrack.Library.Runs
import LicenseTrack.Services.CsvImport
import LicenseTrack.Services.LicenseDelete
import LicenseTrack.Services.LicensePatch
import LicenseTrack.Services.OrderConversion

/-! The requests that write licences, each a transaction on the store.
-/

namespace LicenseTrack

open Library

/-- A request or a job of the installation, with what its sender submits. -/
inductive Request
  | create (payload : LicenseCreate)
  | createBatch (items : List LicenseBatchCreateItem)
  | update (id : Nat) (payload : LicenseUpdate)
  | patch (id : Nat) (change : LicensePatch)
  | setPoTotalOverride (id : Nat) (value : Option String)
  | delete (id : Nat)
  | bulkDelete (ids : List Nat)
  | importCsvRow (progress : ImportProgress) (matched : Option Nat) (row : ParsedRow)
  | createMaintenance (parentId : Nat) (row : License)
  | linkMaintenance (maintenanceId parentId : Nat)
  | activateMaintenance (maintenanceId parentId : Nat)
  | recomputeMaintenance (parentId : Nat)
  | detachMaintenance (maintenanceId parentId : Nat)
  | retireMaintenance (maintenanceId : Nat)
  | disableMaintenance (parentId : Nat)
  | handOverMaintenance
  | retireDue
  | convertOrder (orderId : Nat) (form : ConversionForm) (submitted : List ConversionField)
  | convertOrderInBatch (orderId : Nat) (payload : List BatchConvertItem)
  | linkSuccessor (predecessorId successorId : Nat)
  | unlinkSuccessor (predecessorId : Nat)
  | repairLifecycle (id : Nat) (repair : LifecycleRepair)

/-- What a request commits, or how it fails. -/
def Request.run (env : Env) : Request → Store → Except Failure Store
  | .create payload, s => createLicense env payload s
  | .createBatch items, s => createLicenseBatch env items s
  | .update id payload, s => updateLicense env id payload s
  | .patch id change, s => patchLicense env id change s
  | .setPoTotalOverride id value, s => applyPoTotalOverride env.unicode id value s
  | .delete id, s => deleteLicense id s
  | .bulkDelete ids, s => bulkDeleteLicenses ids s
  | .importCsvRow progress matched row, s => importRow env progress matched row s
  | .createMaintenance parentId row, s => do
      let (_, s) ← createMaintenanceForParent env parentId row s
      flush s
  | .linkMaintenance maintenanceId parentId, s => linkMaintenanceToParent maintenanceId parentId s
  | .activateMaintenance maintenanceId parentId, s => do
      let s ← activateMaintenanceForParent env maintenanceId parentId s
      flush s
  | .recomputeMaintenance parentId, s => flush (recomputeActiveMaintenance env parentId s)
  | .detachMaintenance maintenanceId parentId, s =>
      flush (detachMaintenanceFromParent maintenanceId parentId true s)
  | .retireMaintenance maintenanceId, s => flush (retireMaintenanceLicense maintenanceId s)
  | .disableMaintenance parentId, s => flush (disableMaintenanceForParent env.unicode parentId s)
  | .handOverMaintenance, s => flush (handOverDueMaintenance env s)
  | .retireDue, s => retireDueLicenses env s
  | .convertOrder orderId form submitted, s =>
      convertPendingOrderToLicenses env orderId form submitted s
  | .convertOrderInBatch orderId payload, s =>
      batchConvertPendingOrderToLicenses env orderId payload s
  | .linkSuccessor predecessorId successorId, s =>
      linkExistingSuccessor env predecessorId successorId s
  | .unlinkSuccessor predecessorId, s => unlinkExistingSuccessor env predecessorId s
  | .repairLifecycle id repair, s => applyLicenseLifecycleRepair id repair s

end LicenseTrack
