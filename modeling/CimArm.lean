import CimArm.Lib.GroupedInsert
import CimArm.Lib.BinarySearch
import CimArm.Db.RecordSet
import CimArm.Db.MultiPart
import CimArm.Db.Content
import CimArm.Db.Cursor
import CimArm.Cim.Defs
import CimArm.Cim.Deposit
import CimArm.Cim.Extraction
import CimArm.Db.DateSearch
import CimArm.Db.IndexInvariant
import CimArm.Db.Run
import CimArm.Cim.DoorAuthorisation
import CimArm.Cim.DoorDelay
import CimArm.Cim.DoorViolation
import CimArm.Dao.DepositDAO
import CimArm.Dao.LastDeposit
import CimArm.Dao.SafeBoxRecordSet
import CimArm.Device.JcmBillAcceptorMgr
import CimArm.Device.MeiBills
import CimArm.Device.MeiPoll
import CimArm.Device.RdmCredit
import CimArm.Device.RdmPoll
import CimArm.Device.SafeBoxHAL
import CimArm.Cim.CimManager
import CimArm.Cim.CloseBoot
import CimArm.Cim.CloseLedger
import CimArm.Cim.CloseRanges
import CimArm.Cim.CloseTotals
import CimArm.Dao.MoneyField
import CimArm.Dao.SafeBoxLoad
import CimArm.Dao.SafeBoxSave
import CimArm.Dao.SafeBoxSearch
import CimArm.Db.Edit
import CimArm.Db.StringFields
import CimArm.Device.FirmwareTransfer
import CimArm.Device.MeiFirmware
import CimArm.Lib.Decimal
import CimArm.Lib.Divergence
import CimArm.Lib.Duplex
import CimArm.Lib.Ring
import CimArm.Lib.Simulation
import CimArm.Lib.SlotTable
import CimArm.Lib.Watermark
import CimArm.Settings.Login
import CimArm.Settings.ProfileTree
import CimArm.Settings.SafeBoxUsers
import CimArm.Settings.UserBoard
import CimArm.System.Excepts
import CimArm.System.ExceptsFlow
import CimArm.System.OTimer
import CimArm.System.Queue
import CimArm.Telesup.AuditTransfers
import CimArm.Telesup.DFileTransferProtocol
import CimArm.Telesup.DmodemLink
import CimArm.Telesup.FileDelivery
import CimArm.Telesup.GetDataFileRequest
import CimArm.Telesup.NotTransferred
import CimArm.Telesup.POSAcceptor
import CimArm.Telesup.POSDrops
import CimArm.Dao.FlashFile
import CimArm.Dao.RecordAddress
import CimArm.Db.BcdFields
import CimArm.Db.Delete
import CimArm.Device.SafeBoxComm
import CimArm.Device.SafeBoxStatus
import CimArm.Lib.Pieces
import CimArm.Lib.Threads
import CimArm.Lib.Truncation
import CimArm.System.Money
import CimArm.System.Muldiv
import CimArm.System.StaticSyncQueue
import CimArm.System.StringTokenizer
import CimArm.Device.Cdm3000
import CimArm.Device.CoinCounting
import CimArm.Device.CoinSessions
import CimArm.Device.InnerBoardUpdate
import CimArm.Cim.BillAcceptor
import CimArm.Device.HexFile
import CimArm.Device.JcmBillAcceptorComm
import CimArm.Cim.DoorStates
import CimArm.Cim.FailedUnlock
import CimArm.Lib.Progress
import CimArm.Telesup.DmodemConnect
import CimArm.Telesup.DmodemOperations
import CimArm.Telesup.ReadBounds
import CimArm.Telesup.RetryBudget
import CimArm.Lib.Cuts
import CimArm.Lib.Reassembly
import CimArm.Telesup.FileManager
import CimArm.Telesup.MessageParts
import CimArm.Telesup.SplitFile
import CimArm.Cim.CloseAggregation
import CimArm.Dao.FilteredRecordSet
import CimArm.Settings.AutoDelete
import CimArm.System.LicUtil
import CimArm.System.Round
import CimArm.Telesup.TelesupScheduler
import CimArm.Telesup.TemplateParser
import CimArm.Ui.JGrid
import CimArm.Cim.UpdateFirmwareThread
import CimArm.Dao.Denominations
import CimArm.Dao.DualAccess
import CimArm.Device.Cdm3000Frames
import CimArm.Printer.PrinterSpooler
import CimArm.Ui.JEventQueue
import CimArm.Ui.JSubMenu
import CimArm.System.ParamTexts
import CimArm.Telesup.POSRequests
import CimArm.Ui.JText
import CimArm.Cim.DynamicPin
