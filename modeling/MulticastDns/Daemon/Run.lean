import MulticastDns.CommandLine.Grammar
import MulticastDns.Config
import MulticastDns.Host
import MulticastDns.Report
import MulticastDns.Responder
import MulticastDns.Text.Basic

namespace MulticastDns.Daemon

open CommandLine

structure Invocation where
  interface : Option String
  config : Option String
  verbosity : Level
  logFormat : LogFormat
  hostname : Option String
  deriving DecidableEq

namespace Invocation

def levels : List (String × Level) :=
  [("error", .error), ("warn", .warn), ("warning", .warn), ("info", .info), ("debug", .debug),
    ("trace", .trace)]

def level? (value : String) : Option Level := levels.lookup (Text.fold value)

def checkLevel (value : String) : Option Refusal :=
  if (level? value).isSome then none else some .invalidValue

def formats : List (String × LogFormat) := [("text", .text), ("json", .json)]

def checkPath (value : String) : Option Refusal :=
  if value = "" then some .invalidValue else none

def grammar : Grammar where
  arguments :=
    [⟨"interface", some 'i', "interface", .option anyValue⟩,
      ⟨"config", some 'c', "config", .option checkPath⟩,
      ⟨"verbosity", some 'v', "verbosity", .option checkLevel⟩,
      ⟨"log format", none, "log-format", .option (oneOf (formats.map (·.1)))⟩,
      ⟨"hostname", none, "hostname", .option anyValue⟩, helpArgument, versionArgument]
  positional := none
  exclusive := []
  commands := []

def ofWords (words : List String) : Except Refusal Invocation := do
  let reading ← grammar.read words
  let found := reading.found
  return {
    interface := found.value? "interface"
    config := found.value? "config"
    verbosity := ((found.value? "verbosity").bind level?).getD .warn
    logFormat := ((found.value? "log format").bind fun v => formats.lookup v).getD .text
    hostname := found.value? "hostname" }

end Invocation

inductive Failure
  | config (path : String) (cause : ConfigError)
  | noInterface
  | interface (name : String) (cause : InterfaceError)
  | host (cause : HostError)
  deriving DecidableEq

namespace Failure

def configChain (path : String) : ConfigError → List String
  | .missing => [s!"Failed to read config file: {path}", "No such file or directory (os error 2)"]
  | .notUtf8 => [s!"Failed to read config file: {path}", "stream did not contain valid UTF-8"]
  | .malformed => [s!"Failed to parse config file: {path}", "TOML parse error"]

def chain : Failure → List String
  | .config path cause => s!"Failed to load config from {path}" :: configChain path cause
  | .noInterface => ["No interface given (use --interface or responder.interface)"]
  | .interface name cause => [s!"Failed to resolve interface {name}", cause.message]
  | .host cause => [cause.message]

end Failure

structure Surroundings where
  link : Link
  systemName : String
  file : String → Option (Array UInt8)

structure Ready where
  responder : Responder
  mode : ReplyMode
  interface : UInt32

def info (message : String) : Logged Unit := .tell .info .responder message

def loadConfig (around : Surroundings) (i : Invocation) : Logged (Except Failure Config) := do
  match i.config with
  | none => return .ok .default
  | some path =>
    match Config.load (around.file path) with
    | .error e => return .error (.config path e)
    | .ok config =>
      info s!"Loaded config from {path}"
      return .ok config

def assemble (around : Surroundings) (i : Invocation) (config : Config) (interface : String)
    (index : UInt32) : Logged (Except Failure Ready) := do
  let settings := config.settings
  let name := (i.hostname <|> settings.hostname).getD around.systemName
  match ← Host.discover around.link name interface settings.ttl with
  | .error e => return .error (.host e)
  | .ok host =>
    let (loaded, registry) ← config.registerServices .empty
    info s!"Loaded {loaded} of {config.services.length} configured service(s)"
    .tell .debug .core (s!"Joined {Endpoint.groupAddress.text} on interface index {index.toNat} "
      ++ s!"port {Endpoint.multicastPort.toNat}")
    info s!"Answering for {host.name} on {interface} (index {index.toNat})"
    return .ok ⟨⟨host, registry, settings.cacheFlush⟩, settings.reply, index⟩

def start (around : Surroundings) (i : Invocation) : Logged (Except Failure Ready) := do
  info "Starting mdnsd"
  match ← loadConfig around i with
  | .error e => return .error e
  | .ok config =>
    match i.interface <|> config.settings.interface with
    | none => return .error .noInterface
    | some interface =>
      match around.link.interfaceIndex interface with
      | .error e => return .error (.interface interface e)
      | .ok index => assemble around i config interface index

def run (around : Surroundings) (i : Invocation) (arrivals : List Datagram) :
    Logged (Except Failure (List Responder.Sent)) := Logged.upTo i.verbosity do
  match ← start around i with
  | .error e => return .error e
  | .ok ready =>
    let sent ← ready.responder.serve ready.mode ready.interface arrivals
    info "Shutdown signal received"
    let _ ← ready.responder.stop
    info "Shutdown complete"
    return .ok (sent.filterMap id)

end MulticastDns.Daemon
