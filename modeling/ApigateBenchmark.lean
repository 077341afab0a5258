import ApigateBenchmark.Library.Bytes
import ApigateBenchmark.Library.Coroutine
import ApigateBenchmark.GatewayPython.Common
import ApigateBenchmark.GatewayPython.Gateway
import ApigateBenchmark.GatewayPython.Runs
import ApigateBenchmark.GatewayPython.ResponseProtocol
import ApigateBenchmark.Library.Transition
import ApigateBenchmark.DataService.Products
import ApigateBenchmark.DataService.Catalogue
import ApigateBenchmark.GatewayPython.Process
import ApigateBenchmark.GatewayPython.Isolation
import ApigateBenchmark.DataService.Handlers
import ApigateBenchmark.GatewayPython.Identity
import ApigateBenchmark.GatewayPython.BodyReading
import ApigateBenchmark.GatewayPython.UpstreamFailures
import ApigateBenchmark.GatewayPython.HeaderPassThrough
import ApigateBenchmark.GatewayApigate.Routes
import ApigateBenchmark.GatewayLua.Transforms
import ApigateBenchmark.GatewayPython.Schemas
import ApigateBenchmark.Library.GoJson
import ApigateBenchmark.Contract.SearchFilter
import ApigateBenchmark.Contract.LuaBodies
import ApigateBenchmark.Contract.SearchAgreement
import ApigateBenchmark.AuthService.Linearizability
import ApigateBenchmark.AuthService.Handlers
import ApigateBenchmark.AuthService.Service
import ApigateBenchmark.AuthService.VerifySoundness
import ApigateBenchmark.AuthService.Accounts
import ApigateBenchmark.AuthService.Passwords
import ApigateBenchmark.AuthService.Registration
import ApigateBenchmark.Library.WhiteSpace
import ApigateBenchmark.GatewayLua.Remap
import ApigateBenchmark.Contract.LookupQuery
import ApigateBenchmark.GatewayApigate.Spelling
import ApigateBenchmark.GatewayLua.RequireAuth
import ApigateBenchmark.AuthService.Config
import ApigateBenchmark.AuthService.Enrolment
import ApigateBenchmark.AuthService.Lifetime
import ApigateBenchmark.Library.GoMarshal
import ApigateBenchmark.AuthService.FreshTokens
import ApigateBenchmark.Contract.ServedAccounts
import ApigateBenchmark.GatewayPython.Relaying
import ApigateBenchmark.LoadTests.CollectResources
import ApigateBenchmark.LoadTests.Statistics
import ApigateBenchmark.LoadTests.CounterDeltas
import ApigateBenchmark.LoadTests.Entries
import ApigateBenchmark.LoadTests.CpuTime
import ApigateBenchmark.LoadTests.NetworkCounters
import ApigateBenchmark.LoadTests.ResourceReport
import ApigateBenchmark.AuthService.PasswordSecrecy
import ApigateBenchmark.AuthService.Liveness
import ApigateBenchmark.Library.GoDocument
import ApigateBenchmark.DataService.Server
import ApigateBenchmark.GatewayPython.Answers
import ApigateBenchmark.AuthService.Documents
import ApigateBenchmark.Contract.System
import ApigateBenchmark.Contract.PrivateListings
import ApigateBenchmark.Contract.LookupResults
import ApigateBenchmark.GatewayPython.Lifespan
import ApigateBenchmark.GatewayPython.Readiness
import ApigateBenchmark.AuthService.JsonTokens
import ApigateBenchmark.LoadTests.Scenario
import ApigateBenchmark.Contract.Admission
import ApigateBenchmark.Contract.Lookups
import ApigateBenchmark.Contract.Completion
