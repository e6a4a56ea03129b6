import KnxTelegramStore.Buffered.Backup
import KnxTelegramStore.Buffered.DataErrors
import KnxTelegramStore.Buffered.Eviction
import KnxTelegramStore.Buffered.Maintenance
import KnxTelegramStore.Buffered.Opening
import KnxTelegramStore.Buffered.Persistence
import KnxTelegramStore.Formats.EtsXml
import KnxTelegramStore.Lib.Fallible
import KnxTelegramStore.Lib.Paging
import KnxTelegramStore.Lib.Relational
import KnxTelegramStore.Mcp.Tools
import KnxTelegramStore.Postgres.Notify
import KnxTelegramStore.Postgres.Probe
import KnxTelegramStore.Postgres.Serialisation
import KnxTelegramStore.Postgres.WriterLocks
import KnxTelegramStore.Query.Agreement
import KnxTelegramStore.Sql.Pages
import KnxTelegramStore.Sql.Reconcile
import KnxTelegramStore.Sql.Retention
import KnxTelegramStore.Sql.Statements
import KnxTelegramStore.Sqlite.BackupLock
import KnxTelegramStore.Sqlite.Compaction
import KnxTelegramStore.Sqlite.ContextWindow
import KnxTelegramStore.Sqlite.Rebuild
import KnxTelegramStore.Sqlite.StaleSummaries
import KnxTelegramStore.Sqlite.StartupProbe
import KnxTelegramStore.Sqlite.Unwrapping
import KnxTelegramStore.Sqlite.UtcShift
import KnxTelegramStore.Tools.MigrateStore
