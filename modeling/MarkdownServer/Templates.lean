/- The built-in page templates. -/
set_option autoImplicit false

namespace MarkdownServer.Templates

structure Template where
  id : String
  name : String
  description : String
  content : String
deriving DecidableEq, Repr

def page (lines : List String) : String :=
  lines.foldl (fun text line => text ++ line ++ "\n") ""

def basicDocument : Template where
  id := "basic-doc"
  name := "Basic Document"
  description :=
    "General-purpose document with overview, features, setup steps and references"
  content := page [
    "# Document Title",
    "",
    "## Overview",
    "",
    "This document describes the **key features** and _design principles_ of the project.",
    "",
    "## Key Features",
    "",
    "- Real-time data processing",
    "- Automatic notifications",
    "- Role-based access control",
    "",
    "## Getting Started",
    "",
    "1. Clone the repository",
    "2. Install the dependencies",
    "3. Start the development server",
    "",
    "```bash",
    "git clone https://github.com/example/project.git",
    "cd project",
    "npm install",
    "```",
    "",
    "> See the [official documentation](https://example.com/docs) for details.",
    "",
    "---",
    "",
    "*Last updated: YYYY-MM-DD*"]

def tableDocument : Template where
  id := "table-doc"
  name := "Table Document"
  description :=
    "Document built around comparison and schedule tables"
  content := page [
    "# Table Document",
    "",
    "## Summary",
    "",
    "Use this template to compare options or track items in tabular form.",
    "",
    "## Comparison",
    "",
    "| Item | Description | Owner | Status |",
    "|------|-------------|-------|--------|",
    "| Item A | Short description of item A | Alice | Done |",
    "| Item B | Short description of item B | Bob | In progress |",
    "| Item C | Short description of item C | Carol | Not started |",
    "",
    "## Schedule",
    "",
    "| Phase | Start | End | Notes |",
    "|-------|-------|-----|-------|",
    "| Design | YYYY-MM-DD | YYYY-MM-DD | |",
    "| Implementation | YYYY-MM-DD | YYYY-MM-DD | |",
    "| Review | YYYY-MM-DD | YYYY-MM-DD | |",
    "",
    "## Notes",
    "",
    "- Keep one row per item",
    "- Use `Done`, `In progress` or `Not started` for the status column"]

def apiDocument : Template where
  id := "api-doc"
  name := "API Document"
  description :=
    "REST API reference with endpoints, request, response and error tables"
  content := page [
    "# API Name",
    "",
    "## Overview",
    "",
    "Describe what the API does and who calls it.",
    "",
    "## Endpoint",
    "",
    "| Method | Path | Description |",
    "|--------|------|-------------|",
    "| `GET` | `/api/v1/resources` | List resources |",
    "| `POST` | `/api/v1/resources` | Create a resource |",
    "",
    "## Request",
    "",
    "### Headers",
    "",
    "| Name | Required | Description |",
    "|------|----------|-------------|",
    "| `Authorization` | Yes | `Bearer <token>` |",
    "| `Content-Type` | Yes | `application/json` |",
    "",
    "### Body",
    "",
    "```json",
    "\x7b",
    "  \"name\": \"example\",",
    "  \"enabled\": true",
    "\x7d",
    "```",
    "",
    "## Response",
    "",
    "### 200 OK",
    "",
    "```json",
    "\x7b",
    "  \"id\": 1,",
    "  \"name\": \"example\",",
    "  \"enabled\": true",
    "\x7d",
    "```",
    "",
    "### Errors",
    "",
    "| Status | Code | Description |",
    "|--------|------|-------------|",
    "| 400 | `INVALID_REQUEST` | The request body is malformed |",
    "| 401 | `UNAUTHORIZED` | Missing or invalid token |",
    "| 404 | `NOT_FOUND` | The resource does not exist |",
    "",
    "## Example",
    "",
    "```bash",
    "curl -X POST https://api.example.com/api/v1/resources \\",
    "  -H \"Authorization: Bearer <token>\" \\",
    "  -H \"Content-Type: application/json\" \\",
    "  -d '\x7b\"name\": \"example\", \"enabled\": true\x7d'",
    "```"]

def meetingNotes : Template where
  id := "meeting-note"
  name := "Meeting Notes"
  description :=
    "Meeting minutes with agenda, decisions and action items"
  content := page [
    "# Meeting Notes: Topic",
    "",
    "## Details",
    "",
    "| | |",
    "|---|---|",
    "| **Date** | YYYY-MM-DD HH:MM |",
    "| **Location** | Meeting room / video call |",
    "| **Facilitator** | Name |",
    "| **Attendees** | Name, Name, Name |",
    "",
    "## Agenda",
    "",
    "1. Review of previous action items",
    "2. Main topic",
    "3. Open discussion",
    "",
    "## Discussion",
    "",
    "### Main topic",
    "",
    "- Point raised",
    "- Decision or open question",
    "",
    "## Decisions",
    "",
    "- Decision 1",
    "- Decision 2",
    "",
    "## Action Items",
    "",
    "- [ ] Task description (owner, due YYYY-MM-DD)",
    "- [ ] Task description (owner, due YYYY-MM-DD)",
    "- [x] Completed task from the previous meeting",
    "",
    "## Next Meeting",
    "",
    "*YYYY-MM-DD HH:MM*"]

def all : List Template :=
  [basicDocument, tableDocument, apiDocument, meetingNotes]

def find? (id : String) : Option Template :=
  all.find? fun t => t.id == id

def ids : List String :=
  all.map Template.id

end MarkdownServer.Templates
