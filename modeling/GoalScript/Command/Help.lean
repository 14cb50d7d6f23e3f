import GoalScript.Command.Arguments

namespace GoalScript.Command

def globalOptions : List String := [
  "Options:",
  "      --config <CONFIG>        Path to config file (overrides default search)",
  "      --log-level <LOG_LEVEL>  Log filter used when RUST_LOG is unset (overrides config)",
  "  -h, --help                   Print help"]

def programHelp : List String := [
  "Stepwise - run parsed goal files",
  "",
  "Usage: stepwise [OPTIONS] <COMMAND>",
  "",
  "Commands:",
  "  run    Run goals from a parsed goal file (JSON or TOML)",
  "  goals  List the goals of a goal file",
  "  help   Print this message or the help of the given subcommand(s)",
  ""] ++ globalOptions

def runHelp : List String := [
  "Run goals from a parsed goal file (JSON or TOML)",
  "",
  "Usage: stepwise run [OPTIONS] <FILE>",
  "",
  "Arguments:",
  "  <FILE>  Goal file",
  "",
  "Options:",
  "      --config <CONFIG>",
  "          Path to config file (overrides default search)",
  "  -g, --goal <GOALS>",
  "          Goal to run (repeatable; default goal of the file if omitted)",
  "      --log-level <LOG_LEVEL>",
  "          Log filter used when RUST_LOG is unset (overrides config)",
  "      --var <VARS>",
  "          Initial variable as name=value; values are parsed as JSON when possible",
  "      --build-mode",
  "          Tolerate unresolvable variable references",
  "      --step-timeout-ms <STEP_TIMEOUT_MS>",
  "          Default step timeout in milliseconds",
  "  -h, --help",
  "          Print help"]

def goalsHelp : List String := [
  "List the goals of a goal file",
  "",
  "Usage: stepwise goals [OPTIONS] <FILE>",
  "",
  "Arguments:",
  "  <FILE>  Goal file",
  ""] ++ globalOptions

def helpHelp : List String := [
  "Print this message or the help of the given subcommand(s)",
  "",
  "Usage: stepwise help [COMMAND]...",
  "",
  "Arguments:",
  "  [COMMAND]...  Print help for the subcommand(s)"]

def Topic.helpText : Topic → List String
  | .program => programHelp
  | .run => runHelp
  | .goals => goalsHelp
  | .help => helpHelp

end GoalScript.Command
