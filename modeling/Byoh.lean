import Byoh.Foundation.RelyGuarantee
import Byoh.Properties.FinalizerHeld
import Byoh.Properties.OneToOne
import Byoh.Properties.AttachedInFull
import Byoh.Properties.BackToPool
import Byoh.Properties.HostReuse
import Byoh.Properties.UninstallSecrets
import Byoh.Properties.ReleaseCompletes
import Byoh.Properties.ProvisioningCompletes
import Byoh.Properties.NoLostUpdate
import Byoh.Properties.ClusterOutlives
import Byoh.Properties.EventFilters
import Byoh.Properties.ScaleDown
import Byoh.Properties.ScriptsPublished
import Byoh.Properties.UninstallBeforeReuse
import Byoh.Properties.PausedCleanup
import Byoh.Properties.OwnScripts
import Byoh.Properties.SecretsKept
import Byoh.Properties.Handshake
import Byoh.Properties.HostOfMachine
import Byoh.Properties.ProviderId
import Byoh.Properties.InstallerKinds
import Byoh.Properties.BundlePath
import Byoh.Properties.BootstrapSteps
import Byoh.Properties.WrittenFiles
import Byoh.Properties.WakeUps
import Byoh.Properties.FlagPrecedence
import Byoh.Properties.LabelFlags
import Byoh.Properties.OsRelease
import Byoh.Properties.Rotation
import Byoh.Properties.WaitUnset
import Byoh.Properties.MissingParser
import Byoh.Properties.BootstrapTokens
import Byoh.Properties.NoPanic
import Byoh.Properties.LastNode
import Byoh.Protocol.ControllerPhases
import Byoh.Protocol.AgentPhases
import Byoh.Properties.HostBundle
import Byoh.Properties.HostSwap
import Byoh.Properties.Credentials
