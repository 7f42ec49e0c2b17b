import SampleAuthApi.Http.Audit
import SampleAuthApi.Http.Rejections
import SampleAuthApi.Sessions.Accounts
import SampleAuthApi.Sessions.Answers
import SampleAuthApi.Sessions.Atomicity
import SampleAuthApi.Sessions.DeviceRace
import SampleAuthApi.Sessions.DeviceSet
import SampleAuthApi.Sessions.Draining
import SampleAuthApi.Sessions.Failures
import SampleAuthApi.Sessions.Gate
import SampleAuthApi.Sessions.Headcount
import SampleAuthApi.Sessions.Isolation
import SampleAuthApi.Sessions.Listing
import SampleAuthApi.Sessions.Logout
import SampleAuthApi.Sessions.OldPassword
import SampleAuthApi.Sessions.PasswordRace
import SampleAuthApi.Sessions.Passwords
import SampleAuthApi.Sessions.PhoneNumbers
import SampleAuthApi.Sessions.Provenance
import SampleAuthApi.Sessions.Removal
import SampleAuthApi.Sessions.Revocation
import SampleAuthApi.Sessions.Rotation
import SampleAuthApi.Sessions.RoundTrip
import SampleAuthApi.Sessions.SignOut
import SampleAuthApi.Sessions.SignupRace
import SampleAuthApi.Sessions.UserRows
import SampleAuthApi.Sessions.Validity
import SampleAuthApi.Sessions.Wire
import SampleAuthApi.Sessions.Withdrawn
