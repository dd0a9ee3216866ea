/-!
# What the program tells about itself

The line with its version, and for each command a page that says how to use it.
-/

namespace TilePuzzle.Usage

/-- The name of the program. -/
def programName : String := "codegrid"

/-- The name and the number of the program. -/
def versionLine : String := programName ++ " 0.1.0"

/-- How to use the program, or the command that the words name. -/
def page : List String → List String
  | ["run"] => [
    "Usage: " ++ programName ++ " run --level LEVEL [OPTIONS]",
    "  -l, --level LEVEL       level file",
    "  -p, --program PROGRAM   program file, in place of the program of the level",
    "  -t, --max-ticks N       stop after so many ticks",
    "      --tick-rate RATE    ticks in a second, in place of the delay",
    "  -d, --delay-ms N        pause between ticks in milliseconds",
    "      --time-limit N      time limit in seconds, in place of that of the level",
    "      --json              print a snapshot of the end",
    "      --transcript FILE   add the signals of every tick to a file",
    "  -q, --quiet             print the end only"]
  | ["program", "check"] => ["Usage: " ++ programName ++ " program check FILE [--level]"]
  | ["program", "blocks"] => ["Usage: " ++ programName ++ " program blocks"]
  | "program" :: _ => ["Usage: " ++ programName ++ " program check|blocks"]
  | ["level", "show"] => ["Usage: " ++ programName ++ " level show FILE [--json]"]
  | "level" :: _ => ["Usage: " ++ programName ++ " level show"]
  | _ => ["Usage: " ++ programName ++ " run|program|level"]

end TilePuzzle.Usage
