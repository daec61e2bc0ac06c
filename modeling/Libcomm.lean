import Libcomm.BurstErrors
import Libcomm.Endpoints
import Libcomm.ErrorPatterns
import Libcomm.FrameLink
import Libcomm.MidiMessages
import Libcomm.OtaActivation
import Libcomm.OtaAgreement
import Libcomm.OtaChunks
import Libcomm.OtaConversation
import Libcomm.OtaIsolation
import Libcomm.OtaReceiver
import Libcomm.OtaReports
import Libcomm.OtaTargets
import Libcomm.OtaUpload
import Libcomm.SequenceNumbers
import Libcomm.StreamGarbage
import Libcomm.StreamLedger
import Libcomm.StreamQueue
import Libcomm.StreamRecovery
import Libcomm.StreamReset
import Libcomm.StreamSizeTypes
import Libcomm.TransmitBuffers
