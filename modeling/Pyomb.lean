import Pyomb.Pdu.Registry
import Pyomb.Adu.RoundTrip
import Pyomb.Adu.Consistency
import Pyomb.Adu.Failures
import Pyomb.Adu.CrcErrors
import Pyomb.Adu.CrcPolynomial
import Pyomb.Transport.Rtu
import Pyomb.Transport.RtuStream
import Pyomb.Transport.RtuReceive
import Pyomb.Transport.Resync
import Pyomb.Transport.Burst
import Pyomb.Transport.SharedSender
import Pyomb.Transport.Captures
import Pyomb.Transport.Tls
import Pyomb.Transport.RtuLine
import Pyomb.Transport.Rounds
import Pyomb.Simulators.Correlation
import Pyomb.Simulators.Timeouts
import Pyomb.Simulators.Stale
import Pyomb.Simulators.Requests
import Pyomb.Simulators.Answers
import Pyomb.Simulators.Bookkeeping
import Pyomb.Simulators.Waiting
import Pyomb.Simulators.Lifecycle
import Pyomb.Simulators.Session
import Pyomb.Simulators.HandOver
import Pyomb.Simulators.Startup
import Pyomb.Simulators.Stranding
import Pyomb.Simulators.Service
