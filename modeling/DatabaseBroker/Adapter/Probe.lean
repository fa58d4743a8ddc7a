import DatabaseBroker.Adapter.Endpoint
import DatabaseBroker.Adapter.Error

/-!
# Probing an adapter

An adapter is healthy when it answers a request for its probe path with a success. `Probe.run` says which request is
sent and how the probe ends, given how the far side behaves.
-/

namespace DatabaseBroker

/-- How an adapter is probed. -/
structure Probe where
  path : String
  limit : Duration
deriving DecidableEq

/-- How the far side of a connection behaves. -/
inductive Peer where
  | refuses
  | silent
  | answers (status : Nat)
deriving DecidableEq

/-- A request: its first line, and its headers by name. -/
structure ProbeRequest where
  line : String
  headers : List (String × String)
deriving DecidableEq

/-- How a probe went: the request, if one was sent, and why the adapter is not healthy, if it is not. -/
structure ProbeReport where
  request : Option ProbeRequest
  failure : Option AdapterError
deriving DecidableEq

namespace Probe

/-- A probe of a path, which begins with a slash or is given one. -/
def ofPath (path : String) (limit : Duration) : Probe :=
  ⟨if path.toList.head? = some '/' then path else "/" ++ path, limit⟩

/-- The name under which probes are sent. -/
def agent : String := "dbaas-registry/0.1"

/-- The URL that is asked for at an endpoint, without a fragment; none if it is no URL. -/
def url? (p : Probe) (e : Endpoint) : Option String :=
  let url := "http://" ++ e.text ++ p.path
  if Endpoint.maxLength < url.utf8ByteSize ∨ Endpoint.isAuthority e.text.toList = false then none
  else (Endpoint.pathAndQuery? p.path.toList).map fun path => "http://" ++ e.text ++ String.ofList path

/-- The request for a URL at an endpoint. -/
def request (e : Endpoint) (url : String) : ProbeRequest where
  line := "GET " ++ url ++ " HTTP/1.1"
  headers := [("host", e.text), ("user-agent", agent)]

/-- Whether a status only announces another one. -/
def announces (status : Nat) : Bool := 100 ≤ status && status < 200 && status != 101

/-- What a status says about the adapter. -/
def failureOf (status : Nat) : Option AdapterError :=
  if 200 ≤ status ∧ status < 300 then none
  else if announces status then some (.request "connection closed before the answer")
  else some (.status status)

/-- Probes an endpoint. -/
def runAt (p : Probe) (e : Endpoint) (peer : Peer) : ProbeReport :=
  match peer, p.url? e with
  | .refuses, _ => ⟨none, some (.connect "connection refused")⟩
  | _, none => ⟨none, some (.request "invalid URL")⟩
  | .silent, some url => ⟨some (request e url), some (.timeout p.limit)⟩
  | .answers status, some url => ⟨some (request e url), failureOf status⟩

/-- Probes the adapter at an address. -/
def run (p : Probe) (address : String) (peer : Peer) : Except AdapterError ProbeReport :=
  match Endpoint.ofAddress? address with
  | none => .error (.invalidAddress address)
  | some e => .ok (p.runAt e peer)

end Probe

end DatabaseBroker
