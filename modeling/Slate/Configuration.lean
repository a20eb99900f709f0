import Slate.Library.FiniteMap

/-! The configuration files of the server, which may include one another. -/

namespace Slate
open Library

def configurationOptions : List (List Char) :=
  ["awsAccessKey", "awsSecretKey", "awsRegion", "awsURLScheme", "awsEndpoint", "baseDomain", "helmStableRepo",
    "helmIncubatorRepo", "openTelemetryEndpoint", "disableTelemetry", "disableSampling", "serverInstance",
    "serverEnvironment", "geocodeEndpoint", "geocodeToken", "port", "sslCertificate", "sslKey", "bootstrapUserFile",
    "encryptionKeyFile", "appLoggingServerName", "appLoggingServerPort", "allowAdHocApps", "mailgunEndpoint",
    "mailgunKey", "emailDomain", "opsEmail", "threads"].map String.toList

abbrev ConfigurationFiles := FiniteMap (List Char) (List (List Char))

/-- The options with their values, and what has been logged. The lines that have assigned or
included something are kept beside them. -/
structure Configuration where
  values : List Char → List Char
  errors : List String
  acted : List (List Char)

namespace Configuration

def assign (configuration : Configuration) (line name value : List Char) : Configuration :=
  { configuration with
    values := fun other => if other = name then value else configuration.values other
    acted := configuration.acted ++ [line] }

def enter (configuration : Configuration) (line : List Char) : Configuration :=
  { configuration with acted := configuration.acted ++ [line] }

def logError (configuration : Configuration) (messages : List String) : Configuration :=
  { configuration with errors := configuration.errors ++ messages }

end Configuration

/-- What has become of the parsing: it has run out of fuel, or thrown, or come to its end. -/
inductive Parsed where
  | unfinished
  | fatal (message : String) (configuration : Configuration)
  | finished (configuration : Configuration)

def Parsed.andThen (parsed : Parsed) (next : Configuration → Parsed) : Parsed :=
  match parsed with
  | finished configuration => next configuration
  | stopped => stopped

/-- `line.substr(0, line.find('='))` -/
def optName (line : List Char) : List Char := line.takeWhile (· ≠ '=')

/-- `line.substr(line.find('=') + 1)`, where the place of what is not found is one before the first. -/
def optValue (line : List Char) : List Char :=
  if '=' ∈ line then line.drop ((optName line).length + 1) else line

/-- The loop of `parseFile` over the lines of the last of the files. -/
def parseLines (parse : List (List Char) → Configuration → Parsed) (files : List (List Char)) :
    UInt32 → List (List Char) → Configuration → Parsed
  | _, [], configuration => .finished configuration
  | lineNumber, line :: lines, configuration =>
    if optName line ∈ configurationOptions then
      parseLines parse files (lineNumber + 1) lines (configuration.assign line (optName line) (optValue line))
    else if optName line = "config".toList then
      (parse (files ++ [optValue line]) (configuration.enter line)).andThen (parseLines parse files (lineNumber + 1) lines)
    else
      parseLines parse files (lineNumber + 1) lines (configuration.logError
        [.ofList (files.getLastD []) ++ ":" ++ toString lineNumber ++ ": Unknown option ignored: '" ++ .ofList line ++ "'"])

/-- Reads the last file in files, checking that it does not appear previously. -/
def parseFile (disk : ConfigurationFiles) : Nat → List (List Char) → Configuration → Parsed
  | 0, _, _ => .unfinished
  | fuel + 1, files, configuration =>
    let last := files.getLastD []
    if last ∈ files.dropLast then
      .fatal "Configuration parsing terminated" (configuration.logError
        ("Configuration file loop: " :: files.map fun file => "  " ++ .ofList file))
    else
      match disk.lookup last with
      | none => .fatal ("Unable to open " ++ .ofList last ++ " for reading") configuration
      | some lines => parseLines (parseFile disk fuel) files 1 lines configuration

end Slate
