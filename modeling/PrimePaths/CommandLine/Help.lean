namespace PrimePaths.CommandLine

def programName : String := "Prime_Master.py"

def usageText : String :=
  "\n".intercalate [
    "usage: Prime_Master.py [-h] [-t] [-v] [--indexed] [--validate]",
    "                       [--confirm-primes] [--unique] [--all-paths]",
    "                       [--unit NAME] [--json] [--max-seconds MAX_SECONDS]",
    "                       [--max-calls MAX_CALLS] [--max-paths MAX_PATHS]",
    "                       [--max-nodes MAX_NODES]",
    "                       filename",
    ""]

def optionsText : String :=
  "\n".intercalate [
    "",
    "Compute prime paths from control flow graphs.",
    "",
    "positional arguments:",
    "  filename              Input CFG block listing file",
    "",
    "options:",
    "  -h, --help            show this help message and exit",
    "  -t, --time            Print elapsed execution time",
    "  -v, --verbose         Enable verbose tracing while running",
    "  --indexed             Use the slice-index filter instead of the quadratic",
    "                        containment scan",
    "  --validate            Run both filters and validate the prime path",
    "                        properties",
    "  --confirm-primes      Confirm the prime paths are enumerated, maximal and",
    "                        cover every path",
    "  --unique              Drop repeated prime paths from the output (first",
    "                        occurrence kept)",
    "  --all-paths           Also print every enumerated path (human-readable",
    "                        output only)",
    "  --unit NAME           Analyze only the named unit (repeatable)",
    "  --json                Emit machine-readable JSON (schema_version 1.1) to",
    "                        stdout",
    "  --max-seconds MAX_SECONDS",
    "                        Stop DFS after this many seconds (per unit)",
    "  --max-calls MAX_CALLS",
    "                        Stop DFS after this many node expansions (per unit)",
    "  --max-paths MAX_PATHS",
    "                        Stop DFS after recording this many paths (per unit)",
    "  --max-nodes MAX_NODES",
    "                        Skip units with more than this many live nodes",
    "",
    ""]

def manualText : String :=
  "\n".intercalate [
    "PRIME_MASTER(1)             User Commands             PRIME_MASTER(1)",
    "",
    "NAME",
    "    Prime_Master — compute prime paths for control flow graphs",
    "",
    "SYNOPSIS",
    "    prime_master.py [OPTIONS] FILE",
    "",
    "DESCRIPTION",
    "    Prime_Master reads block-level control flow graphs, keeps only the live",
    "    blocks, enumerates every simple path (plus every path that closes a loop",
    "    back to its own start node) and reports the prime paths: the paths that",
    "    are not a proper contiguous subpath of any longer path. Prime paths are",
    "    the test requirements of the prime path coverage criterion.",
    "",
    "    Input format:",
    "        - \"FUNC NAME\" starts a new unit (one function's CFG).",
    "        - Block lines: \"INDEX live|dead [SUCC ...]\".",
    "        - '#' starts a comment; blank lines are ignored.",
    "        - Blocks before the first FUNC line form a unit named after the file.",
    "",
    "    Block indices of a unit must run 0..k-1 and every successor must name a",
    "    block of the same unit. Edges into or out of dead blocks are dropped.",
    "",
    "FILTERS",
    "    Default (no flag):",
    "        Quadratic containment scan over every enumerated path.",
    "",
    "    --indexed:",
    "        Builds an index of every proper contiguous slice once, then tests",
    "        each path by lookup (more memory, much less time on large path sets).",
    "",
    "JSON OUTPUT",
    "    --json",
    "        Emit a single JSON object to stdout (schema_version 1.1). When enabled,",
    "        human-readable output is suppressed and all logs/errors go to stderr.",
    "",
    "        Rule: if --json is present anywhere in argv, Prime_Master will still emit",
    "        a JSON object even if it fails before reading/parsing the input file",
    "        (e.g., missing file or command-line usage errors).",
    "",
    "VALIDATION",
    "    --validate",
    "        Runs both filters and checks that:",
    "            - both filters select the same prime paths, in the same order",
    "            - every --confirm-primes property holds",
    "",
    "        If enumeration is stopped by --max-* limits, validation is INCONCLUSIVE.",
    "",
    "CONFIRM-PRIMES",
    "    --confirm-primes",
    "        Check the computed prime paths against the enumerated paths:",
    "            - every prime path is one of the enumerated paths",
    "            - no prime path is a proper subpath of any enumerated path",
    "            - every enumerated path is a subpath of some prime path",
    "",
    "ENUMERATION LIMITS (applied to each unit separately)",
    "    --max-seconds SECONDS",
    "        Stop DFS after the given number of seconds.",
    "",
    "    --max-calls COUNT",
    "        Stop DFS after the given number of node expansions.",
    "",
    "    --max-paths COUNT",
    "        Stop DFS once recording another path would exceed COUNT.",
    "",
    "    --max-nodes COUNT",
    "        Skip enumeration for units with more than COUNT live nodes.",
    "",
    "DIAGNOSTICS",
    "    -v, --verbose",
    "        Enable verbose tracing",
    "",
    "    -t, --time",
    "        Print elapsed execution time",
    "",
    "EXIT STATUS",
    "    0   Success. Every selected unit was analyzed (and confirmed, if asked).",
    "",
    "    1   Failure. Invalid or missing input, an invalid unit graph, a failed",
    "        --confirm-primes check, or failed validation.",
    "",
    "    2   Inconclusive. Some unit stopped early due to a search limit and",
    "        nothing failed.",
    "",
    "    130 Interrupted by user (Ctrl+C / SIGINT).",
    "",
    "SEE ALSO",
    "",
    "    Ammann & Offutt, Introduction to Software Testing (prime path coverage)",
    ""]

def helpText : String :=
  usageText ++ optionsText ++ manualText

end PrimePaths.CommandLine
