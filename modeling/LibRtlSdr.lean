import LibRtlSdr.Binary32
import LibRtlSdr.BoundedBuffer
import LibRtlSdr.ByteChip
import LibRtlSdr.CheckedInt
import LibRtlSdr.CircularIndex
import LibRtlSdr.ConsecutivePairs
import LibRtlSdr.DisjointPairs
import LibRtlSdr.DriverProgram
import LibRtlSdr.E4kFailures
import LibRtlSdr.E4kFilters
import LibRtlSdr.E4kGain
import LibRtlSdr.E4kPll
import LibRtlSdr.Fc2580
import LibRtlSdr.FcCycles
import LibRtlSdr.FcDivisions
import LibRtlSdr.FcFraction
import LibRtlSdr.FcGains
import LibRtlSdr.FcTuners
import LibRtlSdr.FiniteMemory
import LibRtlSdr.FirstMinimum
import LibRtlSdr.FixedRecords
import LibRtlSdr.FlagWord
import LibRtlSdr.FlushedFolds
import LibRtlSdr.Following
import LibRtlSdr.GreedyFraction
import LibRtlSdr.HpsdrCalibration
import LibRtlSdr.HpsdrCalibrationPhases
import LibRtlSdr.HpsdrCalibrationRuns
import LibRtlSdr.HpsdrClients
import LibRtlSdr.HpsdrConfig
import LibRtlSdr.HpsdrDatagrams
import LibRtlSdr.HpsdrDownsample
import LibRtlSdr.HpsdrEp2Refinement
import LibRtlSdr.HpsdrEp2Requests
import LibRtlSdr.HpsdrFirstPass
import LibRtlSdr.HpsdrFrameHandshake
import LibRtlSdr.HpsdrFrameLayout
import LibRtlSdr.HpsdrFrameSystem
import LibRtlSdr.HpsdrLiveFrames
import LibRtlSdr.HpsdrLoadPacket
import LibRtlSdr.HpsdrProcessEp2
import LibRtlSdr.HpsdrSendIq
import LibRtlSdr.HpsdrSession
import LibRtlSdr.HpsdrSessionStart
import LibRtlSdr.HpsdrStaleBytes
import LibRtlSdr.HpsdrTuning
import LibRtlSdr.HpsdrTuningRace
import LibRtlSdr.HpsdrWavFrames
import LibRtlSdr.LinkedCells
import LibRtlSdr.LocalSound
import LibRtlSdr.LocalSoundRuns
import LibRtlSdr.MaskedWrites
import LibRtlSdr.NearestMultiples
import LibRtlSdr.OverlayWrites
import LibRtlSdr.PartialRun
import LibRtlSdr.R82xxAccesses
import LibRtlSdr.R82xxBandwidth
import LibRtlSdr.R82xxDivisions
import LibRtlSdr.R82xxFailures
import LibRtlSdr.R82xxFrames
import LibRtlSdr.R82xxGain
import LibRtlSdr.R82xxInit
import LibRtlSdr.R82xxInputs
import LibRtlSdr.R82xxPll
import LibRtlSdr.R82xxPllRange
import LibRtlSdr.R82xxRegisters
import LibRtlSdr.R82xxSettings
import LibRtlSdr.R82xxShadow
import LibRtlSdr.R82xxSuccess
import LibRtlSdr.R82xxTuner
import LibRtlSdr.RadixTwo
import LibRtlSdr.RateShares
import LibRtlSdr.ReadAsync
import LibRtlSdr.ReadAsyncStatus
import LibRtlSdr.ReadAsyncTransfers
import LibRtlSdr.ResourceLedger
import LibRtlSdr.RtlAdsb
import LibRtlSdr.RtlAdsbBounds
import LibRtlSdr.RtlAdsbDecoder
import LibRtlSdr.RtlAdsbFrames
import LibRtlSdr.RtlAdsbManchester
import LibRtlSdr.RtlAdsbMessages
import LibRtlSdr.RtlAdsbRoundTrip
import LibRtlSdr.RtlAdsbSpurious
import LibRtlSdr.RtlEepromImage
import LibRtlSdr.RtlEepromLayout
import LibRtlSdr.RtlEepromReads
import LibRtlSdr.RtlEepromTool
import LibRtlSdr.RtlEepromToolRuns
import LibRtlSdr.RtlFmAudio
import LibRtlSdr.RtlFmAverages
import LibRtlSdr.RtlFmChannels
import LibRtlSdr.RtlFmDeemph
import LibRtlSdr.RtlFmDemod
import LibRtlSdr.RtlFmDiscriminators
import LibRtlSdr.RtlFmFifthOrder
import LibRtlSdr.RtlFmFullDemod
import LibRtlSdr.RtlFmHeadroom
import LibRtlSdr.RtlFmLowPass
import LibRtlSdr.RtlFmMixer
import LibRtlSdr.RtlFmPassLimits
import LibRtlSdr.RtlFmPasses
import LibRtlSdr.RtlFmResample
import LibRtlSdr.RtlFmSettings
import LibRtlSdr.RtlFmThreads
import LibRtlSdr.RtlFmThreadsAudio
import LibRtlSdr.RtlFmThreadsRuns
import LibRtlSdr.RtlPowerBoxcar
import LibRtlSdr.RtlPowerFft
import LibRtlSdr.RtlPowerFftExact
import LibRtlSdr.RtlPowerFftHeadroom
import LibRtlSdr.RtlPowerFftInt16
import LibRtlSdr.RtlPowerFftOrder
import LibRtlSdr.RtlPowerFftStages
import LibRtlSdr.RtlPowerFifthOrder
import LibRtlSdr.RtlPowerPlan
import LibRtlSdr.RtlPowerPlanCoverage
import LibRtlSdr.RtlPowerRemoveDc
import LibRtlSdr.RtlPowerReports
import LibRtlSdr.RtlPowerScanner
import LibRtlSdr.RtlPowerWindow
import LibRtlSdr.RtlPowerWindowGroups
import LibRtlSdr.RtlPowerWindowHeadroom
import LibRtlSdr.RtlPowerWindowLimits
import LibRtlSdr.RtlSdrAutomatic
import LibRtlSdr.RtlSdrBiasTee
import LibRtlSdr.RtlSdrCenterFreq
import LibRtlSdr.RtlSdrCorrection
import LibRtlSdr.RtlSdrDevice
import LibRtlSdr.RtlSdrDivisions
import LibRtlSdr.RtlSdrEeprom
import LibRtlSdr.RtlSdrEepromTransfers
import LibRtlSdr.RtlSdrEnumeration
import LibRtlSdr.RtlSdrExcursion
import LibRtlSdr.RtlSdrFir
import LibRtlSdr.RtlSdrGains
import LibRtlSdr.RtlSdrIfRegister
import LibRtlSdr.RtlSdrIfTracking
import LibRtlSdr.RtlSdrNesting
import LibRtlSdr.RtlSdrR82xx
import LibRtlSdr.RtlSdrRecording
import LibRtlSdr.RtlSdrResources
import LibRtlSdr.RtlSdrResourcesSessions
import LibRtlSdr.RtlSdrResourcesStreams
import LibRtlSdr.RtlSdrSampleRate
import LibRtlSdr.RtlSdrTuningErrors
import LibRtlSdr.RtlTcpCommands
import LibRtlSdr.RtlTcpMemory
import LibRtlSdr.RtlTcpQueue
import LibRtlSdr.RtlTcpSessions
import LibRtlSdr.RtlTcpStream
import LibRtlSdr.RtlTcpStreamOrder
import LibRtlSdr.RtlTestPpm
import LibRtlSdr.RtlTestUnderrun
import LibRtlSdr.SeamlessStages
import LibRtlSdr.SignalledSlot
import LibRtlSdr.StreamingFir
import LibRtlSdr.StreamingGroups
import LibRtlSdr.Stretches
import LibRtlSdr.ThresholdSearch
import LibRtlSdr.CText
