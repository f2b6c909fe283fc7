import RunReport.Report.Format

/-!
# Standard templates

One template for each format. All of them show the title, the runs, the
summary and every analysis table.
-/

namespace RunReport.Template

/-- Lines of text, each with its end. -/
def lines (ls : List String) : String := String.join (ls.map (· ++ "\n"))

/-- A tag with the given path. -/
def tagText (path : String) : String := "\x7b\x7b " ++ path ++ " \x7d\x7d"

/-- The standard template for Org text. -/
def standardOrg : String := lines
  ["#+TITLE: " ++ tagText "report.title",
    "#+AUTHOR: " ++ tagText "report.author",
    "#+DATE: " ++ tagText "report.date",
    "#+SUBTITLE: " ++ tagText "report.tag",
    "",
    "* Overview",
    "",
    "Performance of " ++ tagText "base.name" ++ " " ++ tagText "report.target" ++ " under the",
    tagText "base.workload_title" ++ " workload, compared with earlier releases.",
    "",
    tagText "tables.manifest",
    tagText "tables.summary",
    "* Analysis",
    "",
    tagText "tables_all",
    "Generated by benchreport " ++ tagText "report.tool_version" ++ "."]

/-- The standard template for LaTeX. -/
def standardLatex : String := lines
  ["\\documentclass\x7barticle\x7d",
    "\\usepackage[margin=2cm]\x7bgeometry\x7d",
    "\\title\x7b " ++ tagText "report.title" ++ " \x7d",
    "\\author\x7b " ++ tagText "report.author" ++ " \x7d",
    "\\date\x7b " ++ tagText "report.date" ++ " \x7d",
    "",
    "\\begin\x7bdocument\x7d",
    "\\maketitle",
    "",
    "\\section\x7bOverview\x7d",
    "",
    "Performance of " ++ tagText "base.name" ++ " " ++ tagText "report.target" ++ " under the",
    tagText "base.workload_title" ++ " workload (report " ++ tagText "report.tag" ++ ").",
    "",
    tagText "tables.manifest",
    tagText "tables.summary",
    "\\section\x7bAnalysis\x7d",
    "",
    tagText "tables_all",
    "\\bigskip",
    "\\noindent Generated by benchreport " ++ tagText "report.tool_version" ++ ".",
    "",
    "\\end\x7bdocument\x7d"]

/-- The standard template for plain text. -/
def standardText : String := lines
  [tagText "report.title",
    "by " ++ tagText "report.author" ++ ", " ++ tagText "report.date",
    tagText "report.tag",
    "",
    tagText "tables.manifest",
    tagText "tables.summary",
    tagText "tables_all",
    "benchreport " ++ tagText "report.tool_version"]

/-- The standard templates. -/
def standard : PerFormat String := ⟨standardOrg, standardLatex, standardText⟩

end RunReport.Template
