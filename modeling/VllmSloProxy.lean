import VllmSloProxy.Lib.Run
import VllmSloProxy.Lib.Population
import VllmSloProxy.Lib.SizeT
import VllmSloProxy.Lib.Delimited
import VllmSloProxy.Lib.Line
import VllmSloProxy.Lib.CInt
import VllmSloProxy.Lib.Recent
import VllmSloProxy.Lib.RateWindow
import VllmSloProxy.Lib.Rank
import VllmSloProxy.Lib.Numeral
import VllmSloProxy.Lib.Json
import VllmSloProxy.Lib.Watched
import VllmSloProxy.Lib.Simulation
import VllmSloProxy.Lib.WaitingRoom
import VllmSloProxy.InflightLimiter
import VllmSloProxy.PermitObjects
import VllmSloProxy.SlotConservation
import VllmSloProxy.SseParser
import VllmSloProxy.SseReading
import VllmSloProxy.SseLimits
import VllmSloProxy.SseAtomicity
import VllmSloProxy.SseBounds
import VllmSloProxy.SseEncoding
import VllmSloProxy.HttpMessage
import VllmSloProxy.SlidingWindow
import VllmSloProxy.ProxyMetrics
import VllmSloProxy.ProxyState
import VllmSloProxy.ProxySession
import VllmSloProxy.ProxyServer
import VllmSloProxy.SessionHandlers
import VllmSloProxy.SessionPhase
import VllmSloProxy.WorldSteps
import VllmSloProxy.PermitBooks
import VllmSloProxy.UpstreamCap
import VllmSloProxy.OneResponse
import VllmSloProxy.Accounting
import VllmSloProxy.BodyRelay
import VllmSloProxy.EndOfStream
import VllmSloProxy.QueueDiscipline
import VllmSloProxy.AdmissionPolicy
import VllmSloProxy.AdmissionArithmetic
import VllmSloProxy.AdmissionHysteresis
import VllmSloProxy.AdmissionMonotone
import VllmSloProxy.AdmissionRecovery
import VllmSloProxy.TokenBucket
import VllmSloProxy.PercentileRank
import VllmSloProxy.SseWatch
import VllmSloProxy.OutcomeRecord
import VllmSloProxy.FirstToken
import VllmSloProxy.QueueThreads
import VllmSloProxy.QueueWakeups
import VllmSloProxy.QueueReservations
import VllmSloProxy.ProxyMain
import VllmSloProxy.MetricsThreads
import VllmSloProxy.JsonBodies
import VllmSloProxy.SessionInvariants
import VllmSloProxy.SessionMessages
import VllmSloProxy.HealthFigures
import VllmSloProxy.UpstreamExchange
import VllmSloProxy.Timers
import VllmSloProxy.ThreadSchedules
import VllmSloProxy.OneThread
import VllmSloProxy.ThreadSlots
import VllmSloProxy.Shutdown
import VllmSloProxy.ClientAnswers
import VllmSloProxy.AdmissionRoom
import VllmSloProxy.ControllerDemo
import VllmSloProxy.TtftFigures
