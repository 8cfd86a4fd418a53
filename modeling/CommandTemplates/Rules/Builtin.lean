import CommandTemplates.Document.Notice
import CommandTemplates.Rules.Basic

/-!
# The built-in rules

The rules that apply when a workspace brings none of its own.
-/

namespace CommandTemplates

namespace RuleSet

/-- Old names of commands, kept for existing workflows. -/
def deprecatedAliases : Group where
  name := "deprecated-aliases".toList
  files := ["check-docker-status.md".toList, "dev-health.md".toList, "deploy-dev.md".toList,
    "dev-logs.md".toList]
  guidePolicy := .always
  replacements := [
    ⟨"Pop OS".toList, "\x7bDEV_MACHINE\x7d".toList⟩,
    ⟨"WOR-".toList, "\x7bTICKET_PREFIX\x7d-".toList⟩]
  placeholders := [
    ⟨"\x7bTICKET_PREFIX\x7d".toList, "Your Linear ticket prefix".toList,
      "`WOR`, `PROJ`, `TASK`".toList⟩,
    ⟨"\x7bDEV_MACHINE\x7d".toList, "Your remote dev machine name".toList,
      "`Pop OS`, `staging`, `dev-server`".toList⟩]

/-- Everyday commands, which need a guide only where a ticket is named. -/
def workflowCommands : Group where
  name := "workflow-commands".toList
  files := ["start-work.md".toList, "pre-pr.md".toList, "quick-fix.md".toList,
    "local-sync.md".toList, "audit-deps.md".toList, "test-pr-docker.md".toList]
  guidePolicy := .whenUsed
  replacements := [⟨"WOR-".toList, "\x7bTICKET_PREFIX\x7d-".toList⟩]
  placeholders := [
    ⟨"\x7bTICKET_PREFIX\x7d".toList, "Your Linear ticket prefix".toList,
      "`WOR`, `PROJ`, `TASK`".toList⟩]

/-- The remote rollback, with its keys, hosts, registry and container names. -/
def rollback : Group where
  name := "rollback-dev".toList
  files := ["rollback-dev.md".toList]
  guidePolicy := .always
  replacements := [
    ⟨"~/.ssh/id_ed25519_pop_os".toList, "\x7bSSH_KEY_PATH\x7d".toList⟩,
    ⟨"cheddarfox@pop-os".toList, "\x7bREMOTE_USER\x7d@\x7bREMOTE_HOST\x7d".toList⟩,
    ⟨"pop-os:".toList, "\x7bREMOTE_HOST\x7d:".toList⟩,
    ⟨"http://pop-os:".toList, "http://\x7bREMOTE_HOST\x7d:".toList⟩,
    ⟨"~/Projects/wtfb-team".toList, "\x7bPROJECT_PATH\x7d".toList⟩,
    ⟨"ghcr.io/bybren-llc/wtfb-app/dev".toList,
      "\x7bREGISTRY\x7d/\x7bPROJECT_NAME\x7d/dev".toList⟩,
    ⟨"wtfb-dev-app".toList, "\x7bPROJECT\x7d-dev-app".toList⟩,
    ⟨"name=wtfb".toList, "name=\x7bPROJECT\x7d".toList⟩,
    ⟨"Pop OS".toList, "\x7bDEV_MACHINE\x7d".toList⟩,
    ⟨"WOR-".toList, "\x7bTICKET_PREFIX\x7d-".toList⟩]
  placeholders := [
    ⟨"\x7bTICKET_PREFIX\x7d".toList, "Your Linear ticket prefix".toList,
      "`WOR`, `PROJ`, `TASK`".toList⟩,
    ⟨"\x7bSSH_KEY_PATH\x7d".toList, "Path to SSH private key".toList,
      "`~/.ssh/id_ed25519_staging`".toList⟩,
    ⟨"\x7bREMOTE_USER\x7d".toList, "Username on remote host".toList,
      "`deploy`, `cheddarfox`".toList⟩,
    ⟨"\x7bREMOTE_HOST\x7d".toList, "Remote host name/IP".toList,
      "`pop-os`, `staging.example.com`".toList⟩,
    ⟨"\x7bPROJECT_PATH\x7d".toList, "Project directory on remote".toList,
      "`~/Projects/wtfb-team`, `~/app`".toList⟩,
    ⟨"\x7bREGISTRY\x7d".toList, "Container registry URL".toList,
      "`ghcr.io/bybren-llc`".toList⟩,
    ⟨"\x7bPROJECT_NAME\x7d".toList, "Project name in registry".toList,
      "`wtfb-app`, `myapp`".toList⟩,
    ⟨"\x7bPROJECT\x7d".toList, "Short project identifier".toList, "`wtfb`, `myapp`".toList⟩,
    ⟨"\x7bDEV_MACHINE\x7d".toList, "Remote dev machine name".toList,
      "`Pop OS`, `staging`, `dev-server`".toList⟩]

/-- The built-in rules. -/
def builtin : RuleSet where
  notice := Notice.standard
  groups := [deprecatedAliases, workflowCommands, rollback]

/-- The lines of the text in which the built-in rules are shipped. -/
def builtinLines : List Text :=
  ["# Built-in rules for generalizing .claude/commands/*.md files.".toList,
    "#".toList,
    "# Replacements run top to bottom; each one sees the output of the previous one.".toList,
    [],
    "notice: '> **📋 TEMPLATE**: This command is a template.".toList ++
      " See \"Customization Guide\" below to adapt for your infrastructure.'".toList,
    [],
    "groups:".toList,
    "  # Deprecated aliases kept around for older workflows".toList,
    "  - name: deprecated-aliases".toList,
    "    files:".toList,
    "      - check-docker-status.md".toList,
    "      - dev-health.md".toList,
    "      - deploy-dev.md".toList,
    "      - dev-logs.md".toList,
    "    guide: always".toList,
    "    replacements:".toList,
    "      - from: \"Pop OS\"".toList,
    "        to: \"\x7bDEV_MACHINE\x7d\"".toList,
    "      - from: \"WOR-\"".toList,
    "        to: \"\x7bTICKET_PREFIX\x7d-\"".toList,
    "    placeholders:".toList,
    "      - placeholder: \"\x7bTICKET_PREFIX\x7d\"".toList,
    "        description: \"Your Linear ticket prefix\"".toList,
    "        example: \"`WOR`, `PROJ`, `TASK`\"".toList,
    "      - placeholder: \"\x7bDEV_MACHINE\x7d\"".toList,
    "        description: \"Your remote dev machine name\"".toList,
    "        example: \"`Pop OS`, `staging`, `dev-server`\"".toList,
    [],
    "  - name: workflow-commands".toList,
    "    files:".toList,
    "      - start-work.md".toList,
    "      - pre-pr.md".toList,
    "      - quick-fix.md".toList,
    "      - local-sync.md".toList,
    "      - audit-deps.md".toList,
    "      - test-pr-docker.md".toList,
    "    guide: when-used".toList,
    "    replacements:".toList,
    "      - from: \"WOR-\"".toList,
    "        to: \"\x7bTICKET_PREFIX\x7d-\"".toList,
    "    placeholders:".toList,
    "      - placeholder: \"\x7bTICKET_PREFIX\x7d\"".toList,
    "        description: \"Your Linear ticket prefix\"".toList,
    "        example: \"`WOR`, `PROJ`, `TASK`\"".toList,
    [],
    "  # Remote rollback with SSH, registry and container names".toList,
    "  - name: rollback-dev".toList,
    "    files:".toList,
    "      - rollback-dev.md".toList,
    "    guide: always".toList,
    "    replacements:".toList,
    "      - from: \"~/.ssh/id_ed25519_pop_os\"".toList,
    "        to: \"\x7bSSH_KEY_PATH\x7d\"".toList,
    "      - from: \"cheddarfox@pop-os\"".toList,
    "        to: \"\x7bREMOTE_USER\x7d@\x7bREMOTE_HOST\x7d\"".toList,
    "      - from: \"pop-os:\"".toList,
    "        to: \"\x7bREMOTE_HOST\x7d:\"".toList,
    "      - from: \"http://pop-os:\"".toList,
    "        to: \"http://\x7bREMOTE_HOST\x7d:\"".toList,
    "      - from: \"~/Projects/wtfb-team\"".toList,
    "        to: \"\x7bPROJECT_PATH\x7d\"".toList,
    "      - from: \"ghcr.io/bybren-llc/wtfb-app/dev\"".toList,
    "        to: \"\x7bREGISTRY\x7d/\x7bPROJECT_NAME\x7d/dev\"".toList,
    "      - from: \"wtfb-dev-app\"".toList,
    "        to: \"\x7bPROJECT\x7d-dev-app\"".toList,
    "      - from: \"name=wtfb\"".toList,
    "        to: \"name=\x7bPROJECT\x7d\"".toList,
    "      - from: \"Pop OS\"".toList,
    "        to: \"\x7bDEV_MACHINE\x7d\"".toList,
    "      - from: \"WOR-\"".toList,
    "        to: \"\x7bTICKET_PREFIX\x7d-\"".toList,
    "    placeholders:".toList,
    "      - placeholder: \"\x7bTICKET_PREFIX\x7d\"".toList,
    "        description: \"Your Linear ticket prefix\"".toList,
    "        example: \"`WOR`, `PROJ`, `TASK`\"".toList,
    "      - placeholder: \"\x7bSSH_KEY_PATH\x7d\"".toList,
    "        description: \"Path to SSH private key\"".toList,
    "        example: \"`~/.ssh/id_ed25519_staging`\"".toList,
    "      - placeholder: \"\x7bREMOTE_USER\x7d\"".toList,
    "        description: \"Username on remote host\"".toList,
    "        example: \"`deploy`, `cheddarfox`\"".toList,
    "      - placeholder: \"\x7bREMOTE_HOST\x7d\"".toList,
    "        description: \"Remote host name/IP\"".toList,
    "        example: \"`pop-os`, `staging.example.com`\"".toList,
    "      - placeholder: \"\x7bPROJECT_PATH\x7d\"".toList,
    "        description: \"Project directory on remote\"".toList,
    "        example: \"`~/Projects/wtfb-team`, `~/app`\"".toList,
    "      - placeholder: \"\x7bREGISTRY\x7d\"".toList,
    "        description: \"Container registry URL\"".toList,
    "        example: \"`ghcr.io/bybren-llc`\"".toList,
    "      - placeholder: \"\x7bPROJECT_NAME\x7d\"".toList,
    "        description: \"Project name in registry\"".toList,
    "        example: \"`wtfb-app`, `myapp`\"".toList,
    "      - placeholder: \"\x7bPROJECT\x7d\"".toList,
    "        description: \"Short project identifier\"".toList,
    "        example: \"`wtfb`, `myapp`\"".toList,
    "      - placeholder: \"\x7bDEV_MACHINE\x7d\"".toList,
    "        description: \"Remote dev machine name\"".toList,
    "        example: \"`Pop OS`, `staging`, `dev-server`\"".toList]

/-- The text in which the built-in rules are shipped. -/
def builtinSource : Text :=
  builtinLines.flatMap (· ++ ['\n'])

end RuleSet

end CommandTemplates
