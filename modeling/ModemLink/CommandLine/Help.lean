/-
The pages of the built-in help.
-/
import ModemLink.CommandLine.Options

set_option autoImplicit false

namespace ModemLink.CommandLine

/-- The name of the program. -/
def programName : Text := "atlib-test-app"

/-- The version of the program. -/
def versionLine : Text := programName ++ " 0.1.0".toList

/-- How the program is called. -/
def usage (arguments : Text) : Text := "Usage: ".toList ++ programName ++ arguments

/-- The lines of a page. -/
def Page.lines : Page → List Text
  | .program => [
    "Command-line tool for exercising AT-command modules through atlib",
    "",
    usage " [OPTIONS] <COMMAND>",
    "",
    "Commands:",
    "  families  List the chip families compiled into this build",
    "  ports     List serial ports present on this machine",
    "  events    Print a family's unsolicited-event table",
    "  send      Send one command and wait for its confirmation",
    "  monitor   Print unsolicited events as they arrive",
    "  stress    Issue the same command repeatedly and report the success rate",
    "  help      Print this message or the help of the given subcommand(s)",
    "",
    "Options:",
    "      --family <FAMILY>  Chip family: wifi, ble, lora, cellular. Required for all commands "
      ++ "except \x60families\x60 and \x60ports\x60",
    "      --port <PORT>      Serial port path (e.g. /dev/ttyUSB0, COM3). Required unless "
      ++ "--mock is used",
    "      --baud <BAUD>      Override the family's default baud rate",
    "      --mock             Use a mock transport instead of a real serial port. Every "
      ++ "command sent is answered with the family's success token",
    "  -v, --verbose          Log engine activity at debug level (overridden by RUST_LOG)",
    "  -h, --help             Print help",
    "  -V, --version          Print version"]
  | .families => [
    "List the chip families compiled into this build",
    "",
    usage " families",
    "",
    "Options:",
    "  -h, --help  Print help"]
  | .devices => [
    "List serial ports present on this machine",
    "",
    usage " ports",
    "",
    "Options:",
    "  -h, --help  Print help"]
  | .events => [
    "Print a family's unsolicited-event table",
    "",
    usage " events",
    "",
    "Options:",
    "  -h, --help  Print help"]
  | .send => [
    "Send one command and wait for its confirmation",
    "",
    usage " send [OPTIONS] <COMMAND>",
    "",
    "Arguments:",
    "  <COMMAND>  Command text, without the line terminator",
    "",
    "Options:",
    "      --expect <EXPECT>    Confirmation to wait for [default: success] [possible values: "
      ++ "success, failure, prompt]",
    "      --timeout <TIMEOUT>  Timeout category [default: standard] [possible values: short, "
      ++ "standard, long]",
    "      --raw                Do not append the family's line terminator",
    "  -h, --help               Print help (see more with '--help')"]
  | .sendInFull => [
    "Send one command and wait for its confirmation",
    "",
    usage " send [OPTIONS] <COMMAND>",
    "",
    "Arguments:",
    "  <COMMAND>",
    "          Command text, without the line terminator",
    "",
    "Options:",
    "      --expect <EXPECT>",
    "          Confirmation to wait for",
    "",
    "          Possible values:",
    "          - success",
    "          - failure",
    "          - prompt:  The \x60>\x60 data prompt",
    "          ",
    "          [default: success]",
    "",
    "      --timeout <TIMEOUT>",
    "          Timeout category",
    "          ",
    "          [default: standard]",
    "          [possible values: short, standard, long]",
    "",
    "      --raw",
    "          Do not append the family's line terminator",
    "",
    "  -h, --help",
    "          Print help (see a summary with '-h')"]
  | .monitor => [
    "Print unsolicited events as they arrive",
    "",
    usage " monitor [OPTIONS]",
    "",
    "Options:",
    "      --duration <DURATION>  Duration in seconds (0 = run until Ctrl-C) [default: 0]",
    "  -h, --help                 Print help"]
  | .stress => [
    "Issue the same command repeatedly and report the success rate",
    "",
    usage " stress [OPTIONS]",
    "",
    "Options:",
    "      --count <COUNT>      Number of requests [default: 100]",
    "      --command <COMMAND>  Command text, without the line terminator [default: AT]",
    "  -h, --help               Print help"]
  | .help => [
    "Print this message or the help of the given subcommand(s)",
    "",
    usage " help [COMMAND]...",
    "",
    "Arguments:",
    "  [COMMAND]...  Print help for the subcommand(s)"]

end ModemLink.CommandLine
