import TestScript.Lesson.Basic

namespace TestScript.Lesson

def loginFlow : Lesson where
  title := "Login Flow"
  steps :=
    [⟨"TC-LOGIN-01", "Open the login page", .known .navigate, .known .url,
        "https://example.com/login", Step.notApplicable, "Login form is displayed"⟩,
     ⟨"TC-LOGIN-02", "Enter username", .known .type, .known .id,
        "#username", "qa.user@example.com", "Username field is filled"⟩,
     ⟨"TC-LOGIN-03", "Enter password", .known .type, .known .id,
        "#password", "S3cure!Pass", "Password field is masked"⟩,
     ⟨"TC-LOGIN-04", "Submit the form", .known .click, .known .css,
        "button[type='submit']", Step.notApplicable, "Form is submitted"⟩,
     ⟨"TC-LOGIN-05", "Wait for the dashboard", .known .wait, .known .css,
        ".dashboard", "2000", "Dashboard has loaded"⟩,
     ⟨"TC-LOGIN-06", "Verify welcome banner", .known .expect, .known .css,
        ".welcome-banner", Step.notApplicable, "Welcome back, QA User"⟩]

def apiTesting : Lesson where
  title := "API Testing"
  steps :=
    [⟨"TC-API-01", "Fetch the user list", .known .request, .known .endpoint,
        "/api/v1/users", Step.notApplicable, "200 OK with a JSON array"⟩,
     ⟨"TC-API-02", "Check the first user's email", .known .expect, .known .jsonPath,
        "$.data[0].email", Step.notApplicable, "qa.user@example.com"⟩,
     ⟨"TC-API-03", "Cross-check the database", .known .query, .known .sql,
        "SELECT email FROM users WHERE id = 1", Step.notApplicable,
        "Email matches the API response"⟩]

def securityScan : Lesson where
  title := "Security Scan"
  steps :=
    [⟨"TC-SEC-01", "Crawl the application", .known .spider, .known .url,
        "https://example.com", Step.notApplicable, "All reachable URLs are discovered"⟩,
     ⟨"TC-SEC-02", "Run the active scan", .known .scan, .known .url,
        "https://example.com", "Default Policy", "Scan completes without errors"⟩,
     ⟨"TC-SEC-03", "Review raised alerts", .known .review, .known .url,
        "https://example.com", Step.notApplicable, "Alerts are triaged by risk"⟩,
     ⟨"TC-SEC-04", "Re-scan after fixes", .known .rescan, .known .url,
        "https://example.com", Step.notApplicable, "No high-risk alerts remain"⟩]

end TestScript.Lesson

namespace TestScript.Catalog

def builtin : Catalog where
  lessons := [.loginFlow, .apiTesting, .securityScan]
  lessons_ne_nil := by decide

end TestScript.Catalog
