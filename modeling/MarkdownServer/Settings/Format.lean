import MarkdownServer.Json.Record
import MarkdownServer.Settings.Basic
/- Settings as JSON: an object with an object for each section. A section that is there has a default for
   each of its fields; one that is left out is the standard one as a whole. -/
set_option autoImplicit false

namespace MarkdownServer.Settings

open Json (Draft RecordField Rejection Shape)

def transports : List (String × Transport) :=
  [("http", .http), ("stdio", .stdio)]

def serverShape : Shape ServerSettings where
  type := "struct ServerConfig"
  fields := [
    .of "transport" (Draft.asChoice transports) fun transport s => { s with transport },
    .of "bind" (Draft.asParsed Address.parse? "socket address" "invalid socket address syntax")
      fun address s => { s with address },
    .of "session_idle_timeout_secs" (Draft.asSize "u64") fun idleTimeout s => { s with idleTimeout },
    .of "max_sessions" (Draft.asSize "usize") fun sessions s => { s with sessions }]
  start := {
    transport := .http
    address := .loopback 8080
    idleTimeout := Http.standardIdleTimeout
    sessions := Http.standardSessions }

def converterShape : Shape ConverterSettings where
  type := "struct ConverterConfig"
  fields := [
    .of "default_theme" Draft.asOptionalText fun theme s => { s with theme },
    .of "max_input_bytes" (Draft.asSize "usize") fun inputLimit s => { s with inputLimit }]
  start := {
    theme := none
    inputLimit := Rendering.defaultLimit }

def logShape : Shape LogSettings where
  type := "struct LoggingConfig"
  fields := [.of "level" Draft.asText fun level s => { s with level }]
  start := { level := "warn" }

def remark (name : String) : RecordField Settings :=
  .of name Draft.asOptionalText fun _ s => s

def shape : Shape Settings where
  type := "struct Config"
  fields := [
    remark "$schema",
    remark "_comment",
    .of "server" serverShape.read fun server s => { s with server },
    .of "converter" converterShape.read fun converter s => { s with converter },
    .of "logging" logShape.read fun logging s => { s with logging }]
  start := {}

def parse (text : String) : Except Rejection Settings :=
  shape.readText text

end MarkdownServer.Settings
