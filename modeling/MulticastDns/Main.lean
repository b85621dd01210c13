import MulticastDns.Client.Run
import MulticastDns.CommandLine.Grammar
import MulticastDns.Daemon.Run
import MulticastDns.Report
import MulticastDns.Text.Hex

/-! The two programs behind one command line: `mdnsd` answers datagrams, `mdns-client` asks. The
standard input holds the datagrams that arrive, one a line in hexadecimal digits, and the packets
that are sent are written the same way to the standard error. -/

namespace MulticastDns.Main

/-- The loopback, over which the standard input comes. -/
def link : Link := { Link.silentLoopback with carries := true }

def peer : Endpoint := .v6 .loopback Endpoint.multicastPort 0

def datagrams (lines : List String) : List Datagram :=
  (lines.filterMap fun line => Text.bytesOfHex? (Text.trim line)).map (⟨peer, ·⟩)

def arrivals : IO (List Datagram) := do
  match link.deliver (datagrams (← (← IO.getStdin).lines).toList) with
  | .ok arrived => return arrived
  | .error e => throw (IO.userError e.message)

def readFile? (path : String) : IO (Option (Array UInt8)) := do
  try return some (← IO.FS.readBinFile path).data
  catch _ => return none

def systemName : IO String := do
  return ((← readFile? "/etc/hostname").bind Text.ofUtf8?).getD "localhost"

def refuse (program : String) (usage : List String) (r : CommandLine.Refusal) : IO UInt32 := do
  match r with
  | .help => usage.forM fun line => IO.println line
  | .helpForNothing => usage.forM fun line => IO.eprintln line
  | .version => IO.println s!"{program} 0.1.0"
  | _ => IO.eprintln s!"{program}: {r.message}"
  return .ofNat r.exitCode

def report (format : LogFormat) (events : List Event) : IO Unit :=
  events.forM fun e => IO.eprintln (e.shown format)

def send (packet : List UInt8) : IO Unit := IO.eprintln (Text.hexOfBytes packet)

def daemon (words : List String) : IO UInt32 := do
  match Daemon.Invocation.ofWords words with
  | .error r => refuse "mdnsd" (Daemon.Invocation.grammar.usage "mdnsd") r
  | .ok i =>
    let content ← match i.config with
      | none => pure none
      | some path => readFile? path
    let around : Daemon.Surroundings := ⟨link, ← systemName, fun _ => content⟩
    let ready := (Daemon.start around i).value.isOk
    let outcome := Daemon.run around i (← if ready then arrivals else pure [])
    report i.logFormat outcome.events
    match outcome.value with
    | .ok sent =>
      sent.forM fun packet => send packet.bytes.toList
      return 0
    | .error e =>
      IO.eprint (Report.render e.chain)
      return 1

def clientUsage : List String :=
  Client.Invocation.grammar.usage "mdns-client"
    ++ Client.Invocation.lookupGrammar.usage "mdns-client query"
    ++ Client.Invocation.browseGrammar.usage "mdns-client browse"

def client (words : List String) : IO UInt32 := do
  match Client.Invocation.ofWords words with
  | .error r => refuse "mdns-client" clientUsage r
  | .ok i =>
    let asks := (i.run link []).value.outcome.isOk
    let session := i.run link (← if asks then arrivals else pure [])
    report .text session.events
    session.value.sent.forM send
    IO.print (Client.unlines session.value.output)
    if let .error e := session.value.outcome then IO.eprint (Report.render e.chain)
    return .ofNat session.value.exitCode

def run : List String → IO UInt32
  | "mdnsd" :: words => daemon words
  | "mdns-client" :: words => client words
  | _ => do
    IO.eprintln "usage: mdnsd|mdns-client [options]"
    return 2

end MulticastDns.Main

def main (words : List String) : IO UInt32 := MulticastDns.Main.run words
