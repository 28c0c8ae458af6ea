import AziotOta.Bytes
import AziotOta.Machine
import AziotOta.NvRecord
import AziotOta.NvImgUpgSt
import AziotOta.NvFields
import AziotOta.NvStore
import AziotOta.Handler
import AziotOta.ApplyWindow
import AziotOta.Recovery
import AziotOta.Writer
import AziotOta.WriterExact
import AziotOta.Download
import AziotOta.HeaderCapture
import AziotOta.CtxLifetime
import AziotOta.Lifecycle
import AziotOta.ExtensionManager
import AziotOta.PlatformLayer
import AziotOta.D2CMessaging
import AziotOta.D2CSafety
import AziotOta.D2CRuns
import AziotOta.DeviceInfo
