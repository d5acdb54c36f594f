import LicenseTrack.Library.Table
import LicenseTrack.Library.Runs
import LicenseTrack.Library.Digraph
import LicenseTrack.Services.ExistingSuccessor
import LicenseTrack.Renewal.RoundTrip
import LicenseTrack.Services.CsvImport
import LicenseTrack.Chains.AcyclicRuns
import LicenseTrack.Maintenance.CoverageOperations
import LicenseTrack.Import.RowEffect
import LicenseTrack.Operations.RestoreMaintenance
import LicenseTrack.Operations.DailyJobs
import LicenseTrack.Operations.RestoreEffect
import LicenseTrack.References.Merge
import LicenseTrack.Orders.OneCurrency
import LicenseTrack.Retirement.Delayed
import LicenseTrack.Services.IncludedSupport
import LicenseTrack.Support.Periods
import LicenseTrack.Access.ProcurementScope
import LicenseTrack.Accounts.HumanSessions
import LicenseTrack.Accounts.LocalAdmins
import LicenseTrack.CustomFields.CarryOver
import LicenseTrack.Extensions.Actions
import LicenseTrack.Extensions.DocumentScope
import LicenseTrack.Extensions.Surfaces
import LicenseTrack.Extensions.Installation
import LicenseTrack.LicenseRefs.Distinct
import LicenseTrack.Notifications.Lease
import LicenseTrack.Retirement.UnderRenewal
import LicenseTrack.Retirement.UnderRenewalRuns
import LicenseTrack.Support.OpenRenewals
import LicenseTrack.Support.Operations
import LicenseTrack.Support.Requests
import LicenseTrack.Support.Runs
import LicenseTrack.Reset.FreshStart
import LicenseTrack.Installer.Backup
import LicenseTrack.Evidence.Claims
import LicenseTrack.Evidence.CopiedOnce
import LicenseTrack.Installer.Undo
import LicenseTrack.Webhooks.Protocol
import LicenseTrack.Contracts.Numbers
import LicenseTrack.Money.TypedNumbers
import LicenseTrack.Sourcing.PlannedTerms
import LicenseTrack.Maintenance.Deletion
import LicenseTrack.Import.PreviewLines
import LicenseTrack.Import.ParentReferences
import LicenseTrack.Import.MappedRows
import LicenseTrack.References.ConfirmedImports
import LicenseTrack.Maintenance.ActiveChoice
import LicenseTrack.Orders.PoRegister
import LicenseTrack.Import.InvoiceCells
import LicenseTrack.Import.ParentDecisions
import LicenseTrack.Import.InferredParents
import LicenseTrack.Orders.LineNumbers
import LicenseTrack.Conversion.ChainOrder
import LicenseTrack.Money.Numerals
import LicenseTrack.Orders.PurchaseIdentity
import LicenseTrack.Conversion.PlannedLinks
import LicenseTrack.Money.DecimalSums
import LicenseTrack.Sourcing.CotermMerge
import LicenseTrack.Library.Calendar
import LicenseTrack.Services.NextTerms
import LicenseTrack.Renewal.NextTerms
import LicenseTrack.Library.Grouping
import LicenseTrack.Services.Reporting
import LicenseTrack.Services.RenewalReport
import LicenseTrack.Reports.RenewalQuarters
import LicenseTrack.Reports.Allocation
import LicenseTrack.Reports.Spend
import LicenseTrack.Reports.Periods
import LicenseTrack.Reports.PerpetualMaintenance
import LicenseTrack.Services.DuplicateDetection
import LicenseTrack.Import.DuplicateWarnings
import LicenseTrack.Conversion.BatchCoverage
import LicenseTrack.Conversion.LinePrecedence
import LicenseTrack.Import.UpdateFrame
import LicenseTrack.Money.DecimalQuotients
import LicenseTrack.Money.UnitPrice
import LicenseTrack.Installer.ConfigFile
import LicenseTrack.Money.InputText
import LicenseTrack.Services.Completeness
import LicenseTrack.Reports.ShownCompleteness
import LicenseTrack.Services.NotificationClassification
import LicenseTrack.Services.RenewalWorkbench
import LicenseTrack.Notifications.AlertedRows
import LicenseTrack.Registry.Grouping
import LicenseTrack.Registry.GroupTree
import LicenseTrack.Registry.GroupIds
import LicenseTrack.Services.PortfolioStats
import LicenseTrack.Reports.DashboardAgreement
import LicenseTrack.TypeRules.Runs
import LicenseTrack.Chains.ReciprocalRuns
import LicenseTrack.Library.QuotedFields
import LicenseTrack.Services.CsvFiles
import LicenseTrack.Services.CsvExports
import LicenseTrack.Import.ExportedFiles
import LicenseTrack.Import.LicenseExports
import LicenseTrack.Library.Coroutines
import LicenseTrack.Accounts.SessionClient
import LicenseTrack.Accounts.BrowserSessions
import LicenseTrack.Accounts.SessionTransitions
