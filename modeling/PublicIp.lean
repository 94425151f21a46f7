import PublicIp.Client.HttpTransport
import PublicIp.Client.Script
import PublicIp.Client.Verb
import PublicIp.Json.Tree.Lemmas
import PublicIp.Main
import PublicIp.Proofs.Agent.Agreement
import PublicIp.Proofs.Agent.Deleting
import PublicIp.Proofs.Agent.Finding
import PublicIp.Proofs.Agent.Gate
import PublicIp.Proofs.Agent.Identity
import PublicIp.Proofs.Agent.Isolation
import PublicIp.Proofs.Agent.Precheck
import PublicIp.Proofs.Agent.Storing
import PublicIp.Proofs.Agent.Task
import PublicIp.Proofs.Client.Discipline
import PublicIp.Proofs.Client.Endpoint
import PublicIp.Proofs.Client.Gathering
import PublicIp.Proofs.Client.Linearization
import PublicIp.Proofs.Client.Refinement
import PublicIp.Proofs.Client.Removal
import PublicIp.Proofs.Client.Scripted
import PublicIp.Proofs.Client.Secrecy
import PublicIp.Proofs.Tolerance
