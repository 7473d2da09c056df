import VoipTests.Algorithms
import VoipTests.Core.Invited
import VoipTests.Core.MediaIps
import VoipTests.Core.Options
import VoipTests.Core.Pairing
import VoipTests.Detection
import VoipTests.EndToEnd
import VoipTests.NotificationListener
import VoipTests.NotificationProcess
import VoipTests.SleepAbsMono
import VoipTests.Subtest.Advertised
import VoipTests.Subtest.Answers
import VoipTests.Subtest.Caller
import VoipTests.Subtest.Endpoint
import VoipTests.Subtest.HoldRuns
import VoipTests.Subtest.Media
import VoipTests.Subtest.Mightfail
import VoipTests.Subtest.MustFail
import VoipTests.Subtest.NatedContact
import VoipTests.Subtest.Pair
import VoipTests.Subtest.Ports
import VoipTests.Subtest.Validated
import VoipTests.Subtest.Versions
import VoipTests.Switch.Authorize
import VoipTests.Switch.Session
